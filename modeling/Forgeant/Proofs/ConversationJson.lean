import Forgeant.Json.Path
import Forgeant.Json.Reading
import Forgeant.Conversion

namespace Forgeant.Proofs.ConversationJson

def roleNames : List Str := [str "system", str "user", str "assistant", str "tool"]

/-- A block of one of the three types. -/
inductive IsBlock (j : Json) : Prop
  | text (type : j.index (str "type") = .ok (.string (str "text")))
      (text : ∃ s, j.index (str "text") = .ok (.string s))
  | toolUse (type : j.index (str "type") = .ok (.string (str "tool_use")))
      (id : ∃ s, j.index (str "id") = .ok (.string s))
      (name : ∃ s, j.index (str "name") = .ok (.string s))
      (input : ∃ v, j.index (str "input") = .ok v)
  | toolResult (type : j.index (str "type") = .ok (.string (str "tool_result")))
      (toolUseId : ∃ s, j.index (str "tool_use_id") = .ok (.string s))
      (content : ∃ s, j.index (str "content") = .ok (.string s))
      (isError : ∀ v, j.index (str "is_error") = .ok v → ∃ b, v = .boolean b)

structure IsMessage (j : Json) : Prop where
  role : ∃ name ∈ roleNames, j.index (str "role") = .ok (.string name)
  content : ∃ elems, j.index (str "content") = .ok (.array elems) ∧ ∀ e ∈ elems, IsBlock e

structure IsConversation (j : Json) : Prop where
  systemPrompt : ∀ v, j.index (str "system_prompt") = .ok v → ∃ s, v = .string s
  messages : ∃ elems, j.index (str "messages") = .ok (.array elems) ∧ ∀ e ∈ elems, IsMessage e

/-- Only the members of these keys. -/
def keep (keys : List Str) : Json → Json
  | .object members => .object (members.filter (fun e => keys.contains e.1))
  | j => j

/-- The member added, unless there is one. -/
def fill (key : Str) (v : Json) : Json → Json
  | .object members => .object (Assoc.emplace key v members)
  | j => j

def mapElements (f : Json → Json) : Json → Json
  | .array elems => .array (elems.map f)
  | j => j

def blockKeys (type : Str) : List Str :=
  if type = str "text" then [str "type", str "text"]
  else if type = str "tool_use" then [str "type", str "id", str "name", str "input"]
  else [str "type", str "tool_use_id", str "content", str "is_error"]

def normalBlock (j : Json) : Json :=
  match j.index (str "type") with
  | .ok (.string type) =>
    keep (blockKeys type)
      (if type = str "tool_result" then fill (str "is_error") (.boolean false) j else j)
  | _ => j

def normalMessage (j : Json) : Json :=
  keep [str "role", str "content"] (j.update (mapElements normalBlock) [.key (str "content")])

/-- The conversation without the members that no level recognises, and with
each missing `is_error` as false. -/
def normal (j : Json) : Json :=
  keep [str "system_prompt", str "messages"]
    (j.update (mapElements normalMessage) [.key (str "messages")])

theorem fromJson_block (block : ContentBlock) :
    ContentBlock.fromJson block.toJson = .ok block := by
  cases block <;> rfl

theorem fromJson_message (msg : Message) : Message.fromJson msg.toJson = .ok msg := by
  rw [Message.fromJson_ok]
  refine ⟨rfl, msg.content.map ContentBlock.toJson, rfl, ?_⟩
  have h := Except.mapM_map (h := id) (fun b (_ : b ∈ msg.content) => fromJson_block b)
  rwa [List.map_id] at h

theorem fromJson_conversation (conv : Conversation) :
    Conversation.fromJson conv.toJson = .ok conv := by
  obtain ⟨systemPrompt, messages⟩ := conv
  have h := Except.mapM_map (h := id) (fun m (_ : m ∈ messages) => fromJson_message m)
  rw [List.map_id] at h
  rw [Conversation.fromJson_ok]
  cases systemPrompt with
  | none => exact ⟨rfl, messages.map Message.toJson, rfl, h⟩
  | some prompt => exact ⟨rfl, messages.map Message.toJson, rfl, h⟩

theorem role_accepts {j : Json} :
    (∃ role, Role.fromJson j = .ok role) ↔ ∃ name ∈ roleNames, j = .string name := by
  simp only [Role.fromJson_ok]
  constructor
  · rintro ⟨role, rfl⟩
    cases role <;> simp [Role.toJson, roleNames]
  · rintro ⟨name, hname, rfl⟩
    simp only [roleNames, List.mem_cons, List.not_mem_nil, or_false] at hname
    rcases hname with rfl | rfl | rfl | rfl
    · exact ⟨.system, rfl⟩
    · exact ⟨.user, rfl⟩
    · exact ⟨.assistant, rfl⟩
    · exact ⟨.tool, rfl⟩

theorem value_getBool_returns {j : Json} {key : Str} {d : Bool}
    (h : ∀ v, j.index key = .ok v → ∃ b, v = .boolean b) :
    ∃ b, j.value Json.getBool key d = .ok b := by
  cases hcontains : j.contains key with
  | true =>
    obtain ⟨v, hv⟩ := Json.index_of_contains hcontains
    obtain ⟨b, rfl⟩ := h v hv
    exact ⟨b, Json.value_of_index hv _ _⟩
  | false => exact ⟨d, Json.value_of_missing hcontains _ _⟩

theorem block_accepts {j : Json} : (∃ block, ContentBlock.fromJson j = .ok block) ↔ IsBlock j := by
  simp only [ContentBlock.fromJson_ok]
  constructor
  · intro ⟨block, h⟩
    cases block with
    | text b => exact .text h.1 ⟨_, TextBlock.fromJson_ok.mp h.2⟩
    | toolUse b =>
      obtain ⟨hid, hname, hinput⟩ := ToolUseBlock.fromJson_ok.mp h.2
      exact .toolUse h.1 ⟨_, hid⟩ ⟨_, hname⟩ ⟨_, hinput⟩
    | toolResult b =>
      obtain ⟨hid, hcontent, herror⟩ := ToolResultBlock.fromJson_ok.mp h.2
      refine .toolResult h.1 ⟨_, hid⟩ ⟨_, hcontent⟩ ?_
      intro v hv
      rw [Json.value_of_index hv] at herror
      exact ⟨_, Json.getBool_ok.mp herror⟩
  · intro h
    cases h with
    | text htype htext =>
      obtain ⟨s, hs⟩ := htext
      exact ⟨.text ⟨s⟩, htype, TextBlock.fromJson_ok.mpr hs⟩
    | toolUse htype hid hname hinput =>
      obtain ⟨id, hid⟩ := hid
      obtain ⟨name, hname⟩ := hname
      obtain ⟨input, hinput⟩ := hinput
      exact ⟨.toolUse ⟨id, name, input⟩, htype, ToolUseBlock.fromJson_ok.mpr ⟨hid, hname, hinput⟩⟩
    | toolResult htype hid hcontent herror =>
      obtain ⟨id, hid⟩ := hid
      obtain ⟨content, hcontent⟩ := hcontent
      obtain ⟨isError, herror⟩ := value_getBool_returns herror
      exact ⟨.toolResult ⟨id, content, isError⟩, htype,
        ToolResultBlock.fromJson_ok.mpr ⟨hid, hcontent, herror⟩⟩

theorem message_accepts {j : Json} : (∃ msg, Message.fromJson j = .ok msg) ↔ IsMessage j := by
  simp only [Message.fromJson_ok]
  constructor
  · intro ⟨msg, hrole, elems, helems, hblocks⟩
    refine ⟨?_, elems, helems, ?_⟩
    · obtain ⟨name, hname, heq⟩ := role_accepts.mp ⟨msg.role, Role.fromJson_ok.mpr rfl⟩
      exact ⟨name, hname, heq ▸ hrole⟩
    · intro e he
      exact block_accepts.mp (Except.mapM_returns.mp ⟨_, hblocks⟩ e he)
  · intro h
    obtain ⟨name, hname, hrole⟩ := h.role
    obtain ⟨role, heq⟩ := role_accepts.mpr ⟨name, hname, rfl⟩
    obtain ⟨elems, helems, hall⟩ := h.content
    obtain ⟨blocks, hblocks⟩ :=
      Except.mapM_returns.mpr (fun e he => block_accepts.mpr (hall e he))
    exact ⟨⟨role, blocks⟩, Role.fromJson_ok.mp heq ▸ hrole, elems, helems, hblocks⟩

theorem conversation_accepts {j : Json} :
    (∃ conv, Conversation.fromJson j = .ok conv) ↔ IsConversation j := by
  simp only [Conversation.fromJson_ok]
  constructor
  · intro ⟨conv, hprompt, elems, helems, hmessages⟩
    refine ⟨?_, elems, helems, ?_⟩
    · intro v hv
      cases hp : conv.systemPrompt with
      | some prompt =>
        rw [hp] at hprompt
        cases hv.symm.trans hprompt
        exact ⟨prompt, rfl⟩
      | none =>
        rw [hp] at hprompt
        exact absurd (Json.contains_of_index hv) (Bool.eq_false_iff.mp hprompt)
    · intro e he
      exact message_accepts.mp (Except.mapM_returns.mp ⟨_, hmessages⟩ e he)
  · intro h
    obtain ⟨elems, helems, hall⟩ := h.messages
    obtain ⟨messages, hmessages⟩ :=
      Except.mapM_returns.mpr (fun e he => message_accepts.mpr (hall e he))
    cases hcontains : j.contains (str "system_prompt") with
    | true =>
      obtain ⟨v, hv⟩ := Json.index_of_contains hcontains
      obtain ⟨prompt, rfl⟩ := h.systemPrompt v hv
      exact ⟨⟨some prompt, messages⟩, hv, elems, helems, hmessages⟩
    | false => exact ⟨⟨none, messages⟩, hcontains, elems, helems, hmessages⟩

/-- An object of recognised members only is the object of these members. -/
theorem keep_eq {members : List (Str × Json)} {keys : List Str} (entries : List (Str × Json))
    (ho : Assoc.Ordered members)
    (hin : ∀ e ∈ entries, e.1 ∈ keys ∧ (Json.object members).index e.1 = .ok e.2)
    (hout : ∀ k ∈ keys, k ∈ entries.map Prod.fst ∨ (Json.object members).contains k = false) :
    keep keys (.object members) = .objectOf entries := by
  refine congrArg Json.object (ho.filter_eq_ofList (p := fun k => keys.contains k) ?_ ?_)
  · intro e he
    obtain ⟨hkeys, hindex⟩ := hin e he
    obtain ⟨_, heq, hfind⟩ := Json.index_ok.mp hindex
    cases heq
    exact ⟨List.contains_iff_mem.mpr hkeys, hfind⟩
  · intro k hk
    refine (hout k (List.contains_iff_mem.mp hk)).imp_right (fun h => ?_)
    exact Json.contains_object_false.mp h

theorem index_fill {j v : Json} {k : Str} (h : j.index k = .ok v) (key : Str) (d : Json) :
    (fill key d j).index k = .ok v := by
  obtain ⟨members, rfl, hfind⟩ := Json.index_ok.mp h
  refine Json.index_ok.mpr ⟨_, rfl, ?_⟩
  rw [Assoc.find?_emplace, hfind, Option.some_or]

theorem index_fill_self {members : List (Str × Json)} {key : Str} {d b : Bool}
    (h : (Json.object members).value Json.getBool key d = .ok b) :
    (fill key (.boolean d) (.object members)).index key = .ok (.boolean b) := by
  cases hcontains : (Json.object members).contains key with
  | true =>
    obtain ⟨v, hv⟩ := Json.index_of_contains hcontains
    rw [Json.value_of_index hv] at h
    rw [Json.getBool_ok.mp h] at hv
    exact index_fill hv key _
  | false =>
    rw [Json.value_of_missing hcontains] at h
    cases h
    refine Json.index_ok.mpr ⟨_, rfl, ?_⟩
    rw [Assoc.find?_emplace, if_pos rfl, Json.contains_object_false.mp hcontains, Option.none_or]

theorem normalBlock_of_type {j : Json} {type : Str}
    (h : j.index (str "type") = .ok (.string type)) :
    normalBlock j = keep (blockKeys type)
      (if type = str "tool_result" then fill (str "is_error") (.boolean false) j else j) := by
  unfold normalBlock
  rw [h]

theorem toJson_block {j : Json} (ho : j.Ordered) {block : ContentBlock}
    (h : ContentBlock.fromJson j = .ok block) : block.toJson = normalBlock j := by
  have hread := ContentBlock.fromJson_ok.mp h
  cases block with
  | text b =>
    obtain ⟨htype, hb⟩ := hread
    have htext := TextBlock.fromJson_ok.mp hb
    obtain ⟨members, rfl, _⟩ := Json.index_ok.mp htype
    rw [normalBlock_of_type htype]
    refine (keep_eq _ ho.1 ?_ (fun k hk => .inl hk)).symm
    simp only [List.forall_mem_cons]
    refine ⟨⟨?_, htype⟩, ⟨?_, htext⟩, ?_⟩
    all_goals simp
  | toolUse b =>
    obtain ⟨htype, hb⟩ := hread
    obtain ⟨hid, hname, hinput⟩ := ToolUseBlock.fromJson_ok.mp hb
    obtain ⟨members, rfl, _⟩ := Json.index_ok.mp htype
    rw [normalBlock_of_type htype]
    refine (keep_eq _ ho.1 ?_ (fun k hk => .inl hk)).symm
    simp only [List.forall_mem_cons]
    refine ⟨⟨?_, htype⟩, ⟨?_, hid⟩, ⟨?_, hname⟩, ⟨?_, hinput⟩, ?_⟩
    all_goals simp
  | toolResult b =>
    obtain ⟨htype, hb⟩ := hread
    obtain ⟨hid, hcontent, herror⟩ := ToolResultBlock.fromJson_ok.mp hb
    obtain ⟨members, rfl, _⟩ := Json.index_ok.mp htype
    rw [normalBlock_of_type htype]
    refine (keep_eq _ (ho.1.emplace _ _) ?_ (fun k hk => .inl hk)).symm
    simp only [List.forall_mem_cons]
    refine ⟨⟨?_, index_fill htype _ _⟩, ⟨?_, index_fill hid _ _⟩, ⟨?_, index_fill hcontent _ _⟩,
      ⟨?_, index_fill_self herror⟩, ?_⟩
    all_goals simp

theorem toJson_message {j : Json} (ho : j.Ordered) {msg : Message}
    (h : Message.fromJson j = .ok msg) : msg.toJson = normalMessage j := by
  obtain ⟨hrole, elems, helems, hblocks⟩ := Message.fromJson_ok.mp h
  have hall := (Json.Ordered.orderedElems_iff elems).mp (ho.index helems)
  have hmap : msg.content.map ContentBlock.toJson = elems.map normalBlock :=
    Except.map_eq_of_mapM hblocks (fun e he _ hb => toJson_block (hall e he) hb)
  have hcontent := Json.index_update (f := mapElements normalBlock) helems []
  have hother := Json.index_update_ne (f := mapElements normalBlock)
    (show str "role" ≠ str "content" by decide) [] j
  obtain ⟨members, rfl, _⟩ := Json.index_ok.mp hrole
  refine Eq.trans ?_ (keep_eq
    [(str "role", msg.role.toJson), (str "content", .array (elems.map normalBlock))]
    (ho.1.adjust _ _) ?_ (fun k hk => .inl hk)).symm
  · rw [← hmap]
    rfl
  · simp only [List.forall_mem_cons]
    refine ⟨⟨?_, hother.trans hrole⟩, ⟨?_, hcontent⟩, ?_⟩
    all_goals simp

theorem toJson_conversation {j : Json} (ho : j.Ordered) {conv : Conversation}
    (h : Conversation.fromJson j = .ok conv) : conv.toJson = normal j := by
  obtain ⟨hprompt, elems, helems, hmessages⟩ := Conversation.fromJson_ok.mp h
  have hall := (Json.Ordered.orderedElems_iff elems).mp (ho.index helems)
  have hmap : conv.messages.map Message.toJson = elems.map normalMessage :=
    Except.map_eq_of_mapM hmessages (fun e he _ hm => toJson_message (hall e he) hm)
  have hcontent := Json.index_update (f := mapElements normalMessage) helems []
  have hne : str "system_prompt" ≠ str "messages" := by decide
  have hother := Json.index_update_ne (f := mapElements normalMessage) hne [] j
  have hcontains := Json.contains_update (f := mapElements normalMessage) (str "messages")
    (str "system_prompt") [] j
  obtain ⟨members, rfl, _⟩ := Json.index_ok.mp helems
  obtain ⟨systemPrompt, messages⟩ := conv
  cases systemPrompt with
  | some prompt =>
    refine Eq.trans ?_ (keep_eq
      [(str "system_prompt", .string prompt), (str "messages", .array (elems.map normalMessage))]
      (ho.1.adjust _ _) ?_ (fun k hk => .inl hk)).symm
    · rw [← hmap]
      rfl
    · simp only [List.forall_mem_cons]
      refine ⟨⟨?_, hother.trans hprompt⟩, ⟨?_, hcontent⟩, ?_⟩
      all_goals simp
  | none =>
    refine Eq.trans ?_ (keep_eq
      [(str "messages", .array (elems.map normalMessage))]
      (ho.1.adjust _ _) ?_ ?_).symm
    · rw [← hmap]
      rfl
    · simp only [List.forall_mem_cons]
      refine ⟨⟨?_, hcontent⟩, ?_⟩
      all_goals simp
    · intro k hk
      rcases List.mem_cons.mp hk with rfl | hk
      · exact .inr (hcontains.trans hprompt)
      · exact .inl hk

/-- Writing a conversation and reading it back returns it. Reading accepts just
the format and throws otherwise, and writing what was read gives the value in
its normal form. -/
theorem conversation_lossless (conv : Conversation) (j : Json) (ho : j.Ordered) :
    Conversation.fromJson conv.toJson = .ok conv ∧
    ((∃ read, Conversation.fromJson j = .ok read) ↔ IsConversation j) ∧
    (¬ IsConversation j → ∃ e, Conversation.fromJson j = .error e) ∧
    (∀ read, Conversation.fromJson j = .ok read → read.toJson = normal j) := by
  refine ⟨fromJson_conversation conv, conversation_accepts, ?_, fun _ => toJson_conversation ho⟩
  intro hnot
  cases hread : Conversation.fromJson j with
  | ok read => exact absurd (conversation_accepts.mp ⟨read, hread⟩) hnot
  | error e => exact ⟨e, rfl⟩

/-- A tool's answer without `is_error`, and a member of no meaning. -/
def answer : Json :=
  .object [(str "messages", .array [.object
    [(str "content", .array [.object
      [(str "content", .string (str "72")), (str "tool_use_id", .string (str "t1")),
        (str "type", .string (str "tool_result"))]]),
      (str "note", .null), (str "role", .string (str "tool"))]])]

theorem conversation_lossless_answer :
    ∃ read, Conversation.fromJson answer = .ok read ∧ read.toJson = normal answer := by
  have ho : answer.Ordered := by
    simp only [answer, Json.Ordered, Json.Ordered.orderedElems, Json.Ordered.orderedMembers,
      Assoc.Ordered]
    decide
  exact ⟨_, rfl, (conversation_lossless {} answer ho).2.2.2 _ rfl⟩

end Forgeant.Proofs.ConversationJson
