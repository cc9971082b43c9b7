import Forgeant.Checkpoint
import Forgeant.Proofs.Calls
import Forgeant.Proofs.ConversationJson
import Forgeant.Proofs.FailureReports
import Forgeant.Proofs.JsonRoundTrip
import Forgeant.Proofs.Resending
import Forgeant.Proofs.Transcript
import Forgeant.Proofs.WireForm

namespace Forgeant.Proofs.Checkpoint
open JsonRoundTrip
open WireForm (said reply)

variable [Platform] {valid : Str → Prop}

section

variable (literals : ∀ s : String, valid (str s))

include literals

theorem lasting_block {block : ContentBlock} (h : block.Lasting valid) :
    block.toJson.Lasting valid := by
  have htype (s : String) : (Json.string (str s)).Lasting valid := lasting_string.mpr (literals s)
  cases block with
  | text b =>
    apply lasting_objectOf
    simp only [List.forall_mem_cons]
    exact ⟨⟨literals _, htype _⟩, ⟨literals _, lasting_string.mpr h⟩, List.forall_mem_nil _⟩
  | toolUse b =>
    obtain ⟨hid, hname, hinput⟩ := h
    apply lasting_objectOf
    simp only [List.forall_mem_cons]
    exact ⟨⟨literals _, htype _⟩, ⟨literals _, lasting_string.mpr hid⟩,
      ⟨literals _, lasting_string.mpr hname⟩, ⟨literals _, hinput⟩, List.forall_mem_nil _⟩
  | toolResult b =>
    obtain ⟨hid, hcontent⟩ := h
    apply lasting_objectOf
    simp only [List.forall_mem_cons]
    exact ⟨⟨literals _, htype _⟩, ⟨literals _, lasting_string.mpr hid⟩,
      ⟨literals _, lasting_string.mpr hcontent⟩, ⟨literals _, lasting_boolean _⟩,
      List.forall_mem_nil _⟩

theorem lasting_role (role : Role) : role.toJson.Lasting valid := by
  cases role with
  | _ => exact lasting_string.mpr (literals _)

theorem lasting_set {k : String} {v : Json} {members : List (Str × Json)}
    (h : (Json.object members).Lasting valid) (hv : v.Lasting valid) :
    (Json.object (Assoc.set (str k) v members)).Lasting valid := by
  obtain ⟨hordered, hmembers⟩ := lasting_object.mp h
  refine lasting_object.mpr ⟨hordered.set _ _, ?_⟩
  intro e he
  rcases Assoc.set_mem he with rfl | he
  · exact ⟨literals k, hv⟩
  · exact hmembers e he

theorem lasting_message {m : Message} (h : ∀ block ∈ m.content, block.Lasting valid) :
    m.toJson.Lasting valid := by
  have hblocks : (Json.array (m.content.map ContentBlock.toJson)).Lasting valid := by
    apply lasting_array.mpr
    intro e he
    obtain ⟨block, hblock, rfl⟩ := List.mem_map.mp he
    exact lasting_block literals (h block hblock)
  apply lasting_set literals _ hblocks
  apply lasting_set literals _ (lasting_role literals m.role)
  exact lasting_object.mpr ⟨.nil, List.forall_mem_nil _⟩

theorem lasting_conversation {c : Conversation} (h : c.Lasting valid) :
    c.toJson.Lasting valid := by
  have hmessages : (Json.array (c.messages.map Message.toJson)).Lasting valid := by
    apply lasting_array.mpr
    intro e he
    obtain ⟨m, hm, rfl⟩ := List.mem_map.mp he
    exact lasting_message literals (h.blocks m hm)
  have hempty : (Json.objectOf [(str "messages", .array [])]).Lasting valid := by
    apply lasting_objectOf
    simp only [List.forall_mem_cons]
    exact ⟨⟨literals _, lasting_array.mpr (List.forall_mem_nil _)⟩, List.forall_mem_nil _⟩
  apply lasting_set literals _ hmessages
  cases hprompt : c.systemPrompt with
  | none => exact hempty
  | some prompt => exact lasting_set literals hempty (lasting_string.mpr (h.prompt prompt hprompt))

theorem load_save (glaze : ReadsTexts valid) (prints : PrintsDoubles) {c : Conversation}
    (h : c.Lasting valid) : Conversation.load c.save = .ok c := by
  rw [Conversation.load, Conversation.save,
    parse_lasting glaze prints (lasting_conversation literals h)]
  exact ConversationJson.fromJson_conversation c

end

/-- A value as reading a text yields it. -/
structure Taken (valid : Str → Prop) (j : Json) : Prop where
  ordered : j.Ordered
  leaves : j.Leaves (Settled valid) valid

theorem taken_parse (yields : YieldsStrings valid) (cast : SaturatesCasts) {text : Str} {j : Json}
    (h : Json.parse text = .ok j) : Taken valid j := by
  unfold Json.parse at h
  cases hg : Platform.readJson text with
  | error e => simp [hg] at h
  | ok g =>
    simp only [hg, Except.ok.injEq] at h
    subst h
    exact ⟨fromGeneric_ordered g, fromGeneric_settled cast g (yields text g hg)⟩

theorem taken_index {j v : Json} {key : Str} (h : Taken valid j) (hv : j.index key = .ok v) :
    Taken valid v := by
  refine ⟨h.ordered.index hv, ?_⟩
  obtain ⟨members, rfl, hfind⟩ := Json.index_ok.mp hv
  exact ((Json.Leaves.leavesMembers_iff members).mp h.leaves _ (Assoc.find?_mem hfind)).2

theorem taken_element {elems : List Json} (h : Taken valid (.array elems)) {e : Json}
    (he : e ∈ elems) : Taken valid e where
  ordered := (Json.Ordered.orderedElems_iff elems).mp h.ordered e he
  leaves := (Json.Leaves.leavesElems_iff elems).mp h.leaves e he

theorem taken_object : Taken valid (.object []) := ⟨⟨.nil, trivial⟩, trivial⟩

theorem taken_value {j v d : Json} {key : Str} (h : Taken valid j) (hd : Taken valid d)
    (hv : j.value .ok key d = .ok v) : Taken valid v := by
  cases hc : j.contains key with
  | false =>
    rw [Json.value_of_missing hc] at hv
    cases hv
    exact hd
  | true =>
    obtain ⟨u, hu⟩ := Json.index_of_contains hc
    rw [Json.value_of_index hu] at hv
    cases hv
    exact taken_index h hu

theorem valid_value {j : Json} {key s : Str} (h : Taken valid j) (hnil : valid [])
    (hs : j.value Json.getString key [] = .ok s) : valid s := by
  by_cases hne : s = []
  · rw [hne]
    exact hnil
  · exact (taken_index h ((Json.value_getString_iff hne).mp hs)).leaves.2 s rfl

/-- A block of a response: its strings are valid and its input was read. -/
def TakenBlock (valid : Str → Prop) : ContentBlock → Prop
  | .text b => valid b.text
  | .toolUse b => valid b.id ∧ valid b.name ∧ Taken valid b.input
  | .toolResult _ => False

theorem anthropic_taken {json : Json} {response : LlmResponse} (hnil : valid [])
    (h : Taken valid json) (hresponse : AnthropicProvider.deserializeResponse json = .ok response) :
    ∀ block ∈ response.message.content, TakenBlock valid block := by
  intro block hblock
  rcases AnthropicProvider.deserializeContent_ok.mp
    (AnthropicProvider.deserializeResponse_ok.mp hresponse).content with
    ⟨_, hcontent⟩ | ⟨blocks, parsed, hindex, hparsed, hcontent⟩
  · rw [hcontent] at hblock
    cases hblock
  · rw [hcontent, List.mem_filterMap] at hblock
    obtain ⟨o, ho, rfl⟩ := hblock
    obtain ⟨e, he, hread⟩ := Except.mapM_mem hparsed ho
    have htaken := taken_element (taken_index h hindex) he
    obtain ⟨type, _, hread⟩ := Except.bind_ok.mp hread
    split at hread
    · obtain ⟨text, htext, hread⟩ := Except.bind_ok.mp hread
      cases hread
      exact valid_value htaken hnil htext
    · split at hread
      · obtain ⟨id, hid, hread⟩ := Except.bind_ok.mp hread
        obtain ⟨name, hname, hread⟩ := Except.bind_ok.mp hread
        obtain ⟨input, hinput, hread⟩ := Except.bind_ok.mp hread
        cases hread
        exact ⟨valid_value htaken hnil hid, valid_value htaken hnil hname,
          taken_value htaken taken_object hinput⟩
      · cases hread

theorem arguments_taken (literals : ∀ s : String, valid (str s)) (yields : YieldsStrings valid)
    (cast : SaturatesCasts) {func args : Json} (h : Taken valid func)
    (hargs : OpenAiProvider.deserializeArguments func = .ok args) : Taken valid args := by
  rcases Resending.deserializeArguments_cases hargs with ⟨text, hparse⟩ | ⟨text, hindex, rfl⟩ | rfl
  · exact taken_parse yields cast hparse
  · have htext : valid text := (taken_index h hindex).leaves.2 text rfl
    refine ⟨⟨Assoc.ordered_ofList _, trivial, trivial⟩, literals "_raw", ⟨rfl, ?_⟩, trivial⟩
    intro s hs
    cases hs
    exact htext
  · exact taken_object

omit [Platform] in
theorem contentText_eq (msg : Json) : OpenAiProvider.contentText msg = [] ∨
    msg.index (str "content") = .ok (.string (OpenAiProvider.contentText msg)) := by
  unfold OpenAiProvider.contentText
  split
  · rename_i text hindex
    exact .inr hindex
  · exact .inl rfl

theorem contentText_valid {msg : Json} (hnil : valid []) (h : Taken valid msg) :
    valid (OpenAiProvider.contentText msg) := by
  rcases contentText_eq msg with hempty | hindex
  · rw [hempty]
    exact hnil
  · exact (taken_index h hindex).leaves.2 _ rfl

theorem openAi_taken (literals : ∀ s : String, valid (str s)) (yields : YieldsStrings valid)
    (cast : SaturatesCasts) {json : Json} {response : LlmResponse} (h : Taken valid json)
    (hresponse : OpenAiProvider.deserializeResponse json = .ok response) :
    ∀ block ∈ response.message.content, TakenBlock valid block := by
  have hnil : valid [] := literals ""
  obtain ⟨choice, msg, uses, texts, haccepted⟩ :=
    OpenAiProvider.deserializeResponse_ok.mp hresponse
  obtain ⟨rest, hchoices⟩ := OpenAiProvider.firstChoice_ok.mp haccepted.first
  have hmsg : Taken valid msg := taken_index
    (taken_element (taken_index h hchoices) List.mem_cons_self) haccepted.message
  intro block hblock
  rw [haccepted.content_eq, List.mem_append] at hblock
  rcases hblock with hblock | hblock
  · rcases OpenAiProvider.deserializeToolCalls_ok.mp haccepted.toolCalls with
      ⟨_, rfl⟩ | ⟨calls, hcalls, hblocks⟩
    · cases hblock
    · obtain ⟨call, hcall, hread⟩ := Except.mapM_mem hblocks hblock
      have htaken := taken_element (taken_index hmsg hcalls) hcall
      obtain ⟨func, args, id, name, hfunc, hargs, hid, hname, rfl⟩ :=
        OpenAiProvider.deserializeToolCall_ok.mp hread
      have hfunction := taken_index htaken hfunc
      exact ⟨valid_value htaken hnil hid, valid_value hfunction hnil hname,
        arguments_taken literals yields cast hfunction hargs⟩
  · rw [OpenAiProvider.textBlocks] at hblock
    split at hblock
    · cases hblock
    · cases List.mem_singleton.mp hblock
      exact contentText_valid hnil hmsg

section

variable {T : Type} {call : Call T} {request : ChatRequest} {c : Conversation} {es : List Event}

theorem round_executions (request : ChatRequest) (c : Conversation) (rounds : List Round) :
    ∀ r ∈ rounds, ∀ e ∈ executions r.response.message.toolUses r.outcomes,
      e ∈ roundEvents request c rounds := by
  intro r hr e he
  obtain ⟨pre, post, rfl⟩ := List.append_of_mem hr
  exact mem_threaded.mpr ⟨pre, r, post, rfl, List.mem_cons_of_mem _ he⟩

/-- Each answer goes back to an execution. -/
theorem answers_executed {uses : List ToolUseBlock} {outcomes : List (Except StdException Json)}
    {block : ContentBlock} (h : block ∈ answers uses outcomes) :
    ∃ use ∈ uses, ∃ outcome, .execute use.name use.input outcome ∈ executions uses outcomes ∧
      block = .toolResult (toolResult use outcome) := by
  rw [answers, ← List.map_uncurry_zip_eq_zipWith, List.mem_map] at h
  obtain ⟨⟨use, outcome⟩, hp, rfl⟩ := h
  refine ⟨use, (List.of_mem_zip hp).1, outcome, ?_, rfl⟩
  rw [executions, ← List.map_uncurry_zip_eq_zipWith]
  exact List.mem_map_of_mem hp

theorem segment_written {segment : Segment} (h : ∀ e ∈ segment.events request c, e ∈ es)
    (left : List Message) : ∀ m ∈ segment.messages, Written es call left m := by
  have hrounds : ∀ e ∈ roundEvents request c segment.rounds, e ∈ es :=
    fun e he => h e (List.mem_append_left _ he)
  intro m hm
  rcases List.mem_append.mp hm with hm | hm
  · obtain ⟨r, hr, hm⟩ := List.mem_flatMap.mp hm
    obtain ⟨d, hchat⟩ := Transcript.round_chat request c segment.rounds r hr
    rcases List.mem_cons.mp hm with rfl | hm
    · exact .response (hrounds _ hchat)
    · cases List.mem_singleton.mp hm
      apply Written.results (hrounds _ hchat)
      intro block hblock
      obtain ⟨use, huse, outcome, hexecute, heq⟩ := answers_executed hblock
      exact ⟨use, huse, outcome,
        hrounds _ (round_executions request c segment.rounds r hr _ hexecute), heq⟩
  · obtain ⟨response, _, rfl, hchat⟩ := Transcript.ending_chat request
      (c.extend (segment.rounds.flatMap Round.messages)) segment.ending m hm
    exact .response (h _ (List.mem_append_right _ hchat))

theorem attempts_written {as : Attempts} (hrejected : Calls.Rejected call c as.failed)
    (h : ∀ e ∈ as.events request c, e ∈ es) :
    ∀ m ∈ as.messages, Written es call (c.extend as.messages).messages m := by
  intro m hm
  rcases List.mem_append.mp hm with hm | hm
  · obtain ⟨a, ha, hm⟩ := List.mem_flatMap.mp hm
    obtain ⟨pre, post, hsplit⟩ := List.append_of_mem ha
    rcases List.mem_append.mp hm with hm | hm
    · have hsegment : ∀ e ∈ a.segment.events request (c.extend (pre.flatMap FailedAttempt.messages)),
          e ∈ es :=
        fun e he => h e (List.mem_append_left _ (mem_threaded.mpr ⟨pre, a, post, hsplit, he⟩))
      exact segment_written hsegment _ m hm
    · cases List.mem_singleton.mp hm
      apply Written.corrective
      constructor
      · -- the corrective turn stands right behind the text it corrects
        have hleft : (c.extend as.messages).messages =
            ((Attempts.before c pre).extend a.segment.messages).messages ++
              correctiveMessage a.error.what ::
                (post.flatMap FailedAttempt.messages ++ as.last.messages) := by
          simp [Attempts.messages, Attempts.before, hsplit, FailedAttempt.messages]
        exact hleft
      · exact hrejected pre a post hsplit
  · exact segment_written (fun e he => h e (List.mem_append_right _ he)) _ m hm

end

section

variable {σ T : Type}

/-- What a call leaves is what it started from and the messages it added. -/
theorem call_written (agent : Agent σ) (call : Call T) (s : Session σ) :
    ∃ es messages, Extends agent.provider agent.registry s es (agent.call call s).2 ∧
      reported AgentResult.conversation AgentRunError.conversation (agent.call call s).1 =
        (agent.start call).extend messages ∧
      ∀ m ∈ messages, Written es call ((agent.start call).extend messages).messages m := by
  obtain ⟨as, hrejected, hmade⟩ := Calls.call_made agent call s
  exact ⟨_, as.messages, hmade.extends_, hmade.conversation,
    attempts_written hrejected (fun _ he => he)⟩

/-- A reply was decoded from a text that was read. -/
theorem chat_parsed {client : HttpClient σ} {api url : Str} {headers : HttpHeaders}
    {body : Except StdException Json} {deserialize : Json → Except StdException LlmResponse}
    {w v : σ} {response : LlmResponse}
    (h : client.chat api url headers body deserialize w = (.ok response, v)) :
    ∃ text json, Json.parse text = .ok json ∧ deserialize json = .ok response := by
  unfold HttpClient.chat at h
  cases body with
  | error e => cases h
  | ok body =>
    rcases hpost : client.post url headers body.dump w with ⟨e | reply, u⟩
    · simp only [hpost] at h
      cases h
    · simp only [hpost] at h
      split at h
      · cases h
      · obtain ⟨json, hjson, hresponse⟩ := Except.bind_ok.mp (congrArg Prod.fst h)
        exact ⟨reply.body, json, hjson, hresponse⟩

theorem chat_taken (literals : ∀ s : String, valid (str s)) (yields : YieldsStrings valid)
    (cast : SaturatesCasts) (provider : FailureReports.BuiltIn σ) {c : Conversation}
    {request : ChatRequest} {w v : σ} {response : LlmResponse}
    (h : provider.chat.chat c request w = (.ok response, v)) :
    ∀ block ∈ response.message.content, TakenBlock valid block := by
  cases provider with
  | anthropic provider =>
    obtain ⟨text, json, hjson, hresponse⟩ := chat_parsed h
    exact anthropic_taken (literals "") (taken_parse yields cast hjson) hresponse
  | openAi provider =>
    obtain ⟨text, json, hjson, hresponse⟩ := chat_parsed h
    exact openAi_taken literals yields cast (taken_parse yields cast hjson) hresponse

/-- What is written in a call on a built-in provider lasts, if its numbers are
finite and what the tools answer is valid. -/
theorem written_lasting {es : List Event} {call : Call T} {left : List Message}
    (htaken : ∀ c request response, .chat c request (.ok response) ∈ es →
      ∀ block ∈ response.message.content, TakenBlock valid block)
    (finite : ∀ c request response, .chat c request (.ok response) ∈ es →
      ∀ use ∈ response.message.toolUses,
        use.input.Finite)
    (answered : ∀ name input outcome, .execute name input outcome ∈ es →
      valid (answerText outcome))
    (rejected : ∀ e pre post, Corrects call left e pre post →
      ∀ block ∈ (correctiveMessage e.what).content, block.Lasting valid)
    {m : Message} (h : Written es call left m) :
    ∀ block ∈ m.content, block.Lasting valid := by
  cases h with
  | response h =>
    rename_i c request response
    intro block hblock
    have hblocktaken := htaken c request response h block hblock
    cases block with
    | text b => exact hblocktaken
    | toolResult b => exact hblocktaken.elim
    | toolUse b =>
      obtain ⟨hid, hname, hinput⟩ := hblocktaken
      have hfinite := finite c request response h b (List.mem_filterMap.mpr ⟨_, hblock, rfl⟩)
      exact ⟨hid, hname, hinput.ordered, hinput.leaves.and_imp
        (fun l hl hd => ⟨hl.1, hd, hl.2⟩) (fun k hk _ => hk) hfinite⟩
  | results h hresults =>
    rename_i c request response results
    intro block hblock
    obtain ⟨use, huse, outcome, hexecute, rfl⟩ := hresults block hblock
    obtain ⟨_, hmem, hsome⟩ := List.mem_filterMap.mp huse
    rename_i usedBlock
    cases usedBlock with
    | toolUse b =>
      cases hsome
      have hid : valid use.id := (htaken c request response h _ hmem).1
      have hanswer := answered _ _ _ hexecute
      cases outcome with
      | ok output => exact ⟨hid, hanswer⟩
      | error e => exact ⟨hid, hanswer⟩
    | _ => cases hsome
  | corrective h => exact rejected _ _ _ h

/-- The conversation that a call on a built-in provider returns or throws can be
kept as a text, if what it started from can, the numbers that the model sent are
finite, and the answers of tools and the corrective turns of the call are valid. -/
theorem call_saved (glaze : ReadsTexts valid) (yields : YieldsStrings valid)
    (prints : PrintsDoubles) (cast : SaturatesCasts) (literals : ∀ s : String, valid (str s))
    (provider : FailureReports.BuiltIn σ) (registry : ToolRegistry σ) (options : AgentOptions)
    (call : Call T) {s t : Session σ} {outcome : Except AgentRunError (AgentResult T)}
    (hcall : (Agent.mk provider.chat registry options).call call s = (outcome, t))
    (hstart : ((Agent.mk provider.chat registry options).start call).Lasting valid)
    (finite : ∀ c request response, .chat c request (.ok response) ∈ t.since s →
      ∀ use ∈ response.message.toolUses, use.input.Finite)
    (answered : ∀ name input outcome, .execute name input outcome ∈ t.since s →
      valid (answerText outcome)) :
    let left := reported AgentResult.conversation AgentRunError.conversation outcome
    (∀ e pre post, Corrects call left.messages e pre post →
      ∀ block ∈ (correctiveMessage e.what).content, block.Lasting valid) →
    Conversation.load left.save = .ok left := by
  intro left rejected
  obtain ⟨es, messages, hextends, hleft, hwritten⟩ :=
    call_written (Agent.mk provider.chat registry options) call s
  rw [hcall] at hextends hleft
  rw [hextends.since] at finite answered
  have htaken : ∀ c request response, .chat c request (.ok response) ∈ es →
      ∀ block ∈ response.message.content, TakenBlock valid block := by
    intro c request response h
    obtain ⟨u, x, hchat⟩ := hextends.replays.chat_mem h
    exact chat_taken literals yields cast provider hchat
  simp only [left, hleft] at rejected ⊢
  apply load_save literals glaze prints
  refine ⟨hstart.prompt, ?_⟩
  intro m hm
  rcases List.mem_append.mp hm with hm | hm
  · exact hstart.blocks m hm
  · exact written_lasting htaken finite answered rejected (hwritten m hm)

end

omit [Platform]

def wholeNumber : OutputType Int where
  schema := .object [(str "type", .string (str "integer"))]
  get := Json.getInt

def numberRequest : ChatRequest := { outputSchema := some wholeNumber.schema }

theorem chat_said (c : Conversation) (text : String) (bodies : List Str) :
    letI := Platform.utf8
    WireForm.anthropic.chat.chat c numberRequest ((said text).dump :: bodies) =
      (.ok (reply text), bodies) := by
  let platform := Platform.utf8
  change (Json.parse (said text).dump >>= AnthropicProvider.deserializeResponse, bodies) = _
  rw [parse_utf8 (WireForm.lasting_said text)]
  rfl

theorem chat_asked (c : Conversation) (bodies : List Str) :
    letI := Platform.utf8
    WireForm.anthropic.chat.chat c numberRequest (WireForm.anthropicTurn.dump :: bodies) =
      (.ok WireForm.turn, bodies) := by
  let platform := Platform.utf8
  change (Json.parse WireForm.anthropicTurn.dump >>= AnthropicProvider.deserializeResponse,
    bodies) = _
  rw [parse_utf8 WireForm.lasting_anthropicTurn]
  rfl

/-- The agent on the client that plays back bodies. -/
def numbers : Agent (List Str) :=
  letI := Platform.utf8
  { provider := WireForm.anthropic.chat }

/-- What the call for the tool is answered with. -/
def missing : Message :=
  ⟨.tool, [.toolResult
    { toolUseId := str "t1", content := str "unknown tool: add", isError := true }]⟩

/-- A text ends the loop. -/
theorem iterate_said (i : Nat) (c : Conversation) (usage : Usage) (text : String)
    (bodies : List Str) (trace : List Event) :
    letI := Platform.utf8
    numbers.iterate (some wholeNumber.schema) i ⟨c, usage, ⟨(said text).dump :: bodies, trace⟩⟩ =
      .leave (.ok
        { conversation := c.add (reply text).message, totalUsage := usage + 0,
          iterations := i + 1, finishReason := [] },
        ⟨bodies, trace ++ [.chat c numberRequest (.ok (reply text))]⟩) := by
  let platform := Platform.utf8
  have hrequest : numbers.request (some wholeNumber.schema) = numberRequest := rfl
  have hprovider : numbers.provider = WireForm.anthropic.chat := rfl
  simp only [Agent.iterate, hrequest, hprovider, Session.chat, chat_said]
  rfl

/-- The tool that the model asks for is not there. -/
theorem iterate_asked (c : Conversation) (bodies : List Str) :
    letI := Platform.utf8
    numbers.iterate (some wholeNumber.schema) 0
        ⟨c, 0, ⟨WireForm.anthropicTurn.dump :: bodies, []⟩⟩ =
      .again ⟨(c.add WireForm.turn.message).add missing, 0, ⟨bodies,
        [.chat c numberRequest (.ok WireForm.turn), .execute (str "add") (.object [])
          (.error (.runtimeError (str "unknown tool: add")))]⟩⟩ := by
  let platform := Platform.utf8
  have hrequest : numbers.request (some wholeNumber.schema) = numberRequest := rfl
  have hprovider : numbers.provider = WireForm.anthropic.chat := rfl
  simp only [Agent.iterate, hrequest, hprovider, Session.chat, chat_asked]
  rfl

def question : Conversation := { messages := [.ofText .user (str "2 + 3?")] }

def answered : Conversation := (question.add WireForm.turn.message).add missing

def rejected : Conversation := answered.add (reply "five").message

def corrected : Conversation :=
  rejected.add (correctiveMessage (str "Json::parse: syntax_error"))

def rejectedEvents : List Event :=
  [.chat question numberRequest (.ok WireForm.turn),
    .execute (str "add") (.object []) (.error (.runtimeError (str "unknown tool: add"))),
    .chat answered numberRequest (.ok (reply "five"))]

/-- The first attempt ends with a text that is no number. -/
theorem attempt_five :
    letI := Platform.utf8
    numbers.attempt wholeNumber {} {} 0
        { working := question
          session := ⟨[WireForm.anthropicTurn.dump, (said "five").dump, (said "5").dump], []⟩ } =
      .again
        { working := corrected, totalIterations := 2
          lastError := str "Json::parse: syntax_error"
          session := ⟨[(said "5").dump], rejectedEvents⟩ } := by
  let platform := Platform.utf8
  have hloop : numbers.executeLoop question {} (some wholeNumber.schema)
      ⟨[WireForm.anthropicTurn.dump, (said "five").dump, (said "5").dump], []⟩ =
      (.ok
        { conversation := rejected, totalUsage := 0, iterations := 2, finishReason := [] },
        ⟨[(said "5").dump], rejectedEvents⟩) := by
    have hcap : (numbers.maxIterations {}).toNat = 10 := rfl
    unfold Agent.executeLoop
    simp only [hcap]
    rw [Loop.run_again 9 (iterate_asked _ _), Loop.run_leave 8 (iterate_said _ _ _ _ _ _)]
    rfl
  have hdecode : wholeNumber.decode (extractLastText rejected) =
      .error (.runtimeError (str "Json::parse: syntax_error")) := by
    decide +kernel
  simp only [Agent.attempt, hloop, hdecode]
  rfl

theorem attempt_5 :
    letI := Platform.utf8
    numbers.attempt wholeNumber {} {} 1
        { working := corrected, totalIterations := 2
          lastError := str "Json::parse: syntax_error"
          session := ⟨[(said "5").dump], rejectedEvents⟩ } =
      .leave (.ok
        { output := 5, conversation := corrected.add (reply "5").message, totalUsage := 0,
          iterations := 3, finishReason := [] },
        ⟨[], rejectedEvents ++ [.chat corrected numberRequest (.ok (reply "5"))]⟩) := by
  let platform := Platform.utf8
  have hloop : numbers.executeLoop corrected {} (some wholeNumber.schema)
      ⟨[(said "5").dump], rejectedEvents⟩ =
      (.ok
        { conversation := corrected.add (reply "5").message, totalUsage := 0, iterations := 1,
          finishReason := [] },
        ⟨[], rejectedEvents ++ [.chat corrected numberRequest (.ok (reply "5"))]⟩) := by
    have hcap : (numbers.maxIterations {}).toNat = 10 := rfl
    unfold Agent.executeLoop
    simp only [hcap]
    rw [Loop.run_leave 9 (iterate_said _ _ _ _ _ _)]
    rfl
  have hdecode : wholeNumber.decode (extractLastText (corrected.add (reply "5").message)) =
      .ok 5 := by
    decide +kernel
  simp only [Agent.attempt, hloop, hdecode]
  rfl

/-- A run with a tool that is missing, and then a text that has to be corrected. -/
theorem call_saved_corrected :
    letI := Platform.utf8
    ∃ result t, numbers.runAs wholeNumber (str "2 + 3?") {}
        ⟨[WireForm.anthropicTurn.dump, (said "five").dump, (said "5").dump], []⟩ = (.ok result, t) ∧
      result.output = 5 ∧ result.conversation.messages.length = 6 ∧
      Conversation.load result.conversation.save = .ok result.conversation := by
  let platform := Platform.utf8
  let provider := FailureReports.BuiltIn.anthropic WireForm.anthropic
  let call : Call Int := .runAs wholeNumber (str "2 + 3?") {}
  let s : Session (List Str) :=
    ⟨[WireForm.anthropicTurn.dump, (said "five").dump, (said "5").dump], []⟩
  have hcall : numbers.call call s = (.ok
      { output := 5, conversation := corrected.add (reply "5").message, totalUsage := 0,
        iterations := 3, finishReason := [] },
      ⟨[], rejectedEvents ++ [.chat corrected numberRequest (.ok (reply "5"))]⟩) := by
    have hstart : numbers.promptConversation (str "2 + 3?") {} = question := rfl
    have hretries : (({} : StructuredConfig).maxRetries + 1).toNat = 3 := rfl
    simp only [call, Agent.call, Agent.runAs, Agent.executeStructured, Agent.retryLoop, hstart,
      hretries]
    rw [Loop.run_again 2 attempt_five, Loop.run_leave 1 attempt_5]
  have hcorrective := ((Str.isUtf8_str "Your response did not match the required schema: ").append
    (Str.isUtf8_str "Json::parse: syntax_error")).append
      (Str.isUtf8_str ". Please respond with valid JSON matching the schema.")
  have hlegible : ∀ m ∈ (corrected.add (reply "5").message).messages,
      ∀ block ∈ m.content, block.Lasting Str.IsUtf8 := by
    simpa [corrected, rejected, answered, question, missing, reply, WireForm.turn,
      Message.ofText, correctiveMessage, ContentBlock.Lasting, Assoc.Ordered] using hcorrective
  have hagent : numbers = Agent.mk provider.chat {} {} := rfl
  have hstart : (Agent.mk provider.chat {} {}).start call = question := rfl
  have hsaved := call_saved Platform.utf8_readsTexts Platform.utf8_yieldsStrings
    Platform.utf8_printsDoubles Platform.utf8_saturatesCasts Str.isUtf8_str provider {} {} call
    (hagent ▸ hcall)
  refine ⟨_, _, hcall, rfl, rfl, hsaved ?_ ?_ ?_ ?_⟩
  · rw [hstart]
    exact ⟨by simp [question], by simp [question, Message.ofText, ContentBlock.Lasting]⟩
  · intro c request response h use huse
    simp only [Session.since, s, rejectedEvents, List.length_nil, List.drop_zero,
      List.cons_append, List.nil_append, List.mem_cons, Event.chat.injEq, Except.ok.injEq,
      reduceCtorEq, List.not_mem_nil, or_false, false_or] at h
    rcases h with ⟨-, -, rfl⟩ | ⟨-, -, rfl⟩ | ⟨-, -, rfl⟩
    · cases List.mem_singleton.mp huse
      trivial
    · cases huse
    · cases huse
  · intro name input outcome h
    simp only [Session.since, s, rejectedEvents, List.length_nil, List.drop_zero,
      List.cons_append, List.nil_append, List.mem_cons, Event.execute.injEq, reduceCtorEq,
      List.not_mem_nil, or_false, false_or] at h
    obtain ⟨-, -, rfl⟩ := h
    change (str "unknown tool: add").IsUtf8
    exact Str.isUtf8_str _
  · intro e pre post h
    have hplace : (corrected.add (reply "5").message).messages = _ := h.place
    apply hlegible
    rw [hplace]
    simp

end Forgeant.Proofs.Checkpoint
