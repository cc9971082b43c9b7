import Forgeant.Json.Path
import Forgeant.Json.Reference
import Forgeant.Provider.Anthropic
import Forgeant.Provider.OpenAi

namespace Forgeant.Proofs.NullMembers

/-- A member of an object that stands somewhere in a response. -/
structure Member where
  path : Path
  key : Str

namespace Member

/-- The object is there and has no such member. -/
def Missing (m : Member) (json : Json) : Prop :=
  ∃ members, json.node? m.path = some (.object members) ∧ Assoc.find? m.key members = none

def setNull (key : Str) : Json → Json
  | .object members => .object (Assoc.set key .null members)
  | j => j

/-- The response with the member added, its value null. -/
def withNull (m : Member) (json : Json) : Json := json.update (setNull m.key) m.path

end Member

open Member

section

variable {α : Type} {k k' : Str}

theorem value_setNull (h : k' ≠ k) (get : Json → Except StdException α) (d : α) (j : Json) :
    (setNull k j).value get k' d = j.value get k' d := by
  cases j with
  | object members => simp only [setNull, Json.value, Assoc.find?_set_ne h]
  | _ => rfl

theorem index_setNull_ne (h : k' ≠ k) (j : Json) : (setNull k j).index k' = j.index k' := by
  cases j with
  | object members => simp only [setNull, Json.index, Assoc.find?_set_ne h]
  | _ => rfl

theorem contains_setNull_ne (h : k' ≠ k) (j : Json) :
    (setNull k j).contains k' = j.contains k' := by
  cases j with
  | object members => simp only [setNull, Json.contains, Assoc.find?_set_ne h]
  | _ => rfl

theorem index_setNull (k : Str) (members : List (Str × Json)) :
    (setNull k (.object members)).index k = .ok .null := by
  simp only [setNull, Json.index, Assoc.find?_set_self]

theorem contains_setNull (k : Str) (members : List (Str × Json)) :
    (setNull k (.object members)).contains k = true := by
  simp only [setNull, Json.contains, Assoc.find?_set_self, Option.isSome_some]

/-- A null where a string is read is an error. -/
theorem getString_setNull (k d s : Str) (members : List (Str × Json)) :
    (setNull k (.object members)).value Json.getString k d ≠ .ok s := by
  simp [setNull, Json.value, Json.getString]

/-- A usage that is null reads as one that is absent: the counters of what is
no object are the defaults. -/
theorem deserializeUsage_setNull (i o : Str) {members : List (Str × Json)}
    (h : Assoc.find? (str "usage") members = none) :
    deserializeUsage i o (setNull (str "usage") (.object members)) =
      deserializeUsage i o (.object members) := by
  rw [deserializeUsage_of_index (index_setNull _ _),
    deserializeUsage_of_missing (Json.contains_object_false.mpr h)]
  rfl

theorem deserializeUsage_update {i o : Str} {f : Json → Json} (h : str "usage" ≠ k) (path : Path)
    (j : Json) : deserializeUsage i o (j.update f (.key k :: path)) = deserializeUsage i o j := by
  simp only [deserializeUsage, Json.contains_update, Json.index_update_ne h]

end

inductive OpenAiMember where
  | model
  | usage
  | finishReason
  | content
  | toolCalls
  | callId (i : Nat)
  | callArguments (i : Nat)
  | callName (i : Nat)

namespace OpenAiMember

def choice : Path := [.key (str "choices"), .index 0]

def message : Path := choice ++ [.key (str "message")]

def call (i : Nat) : Path := message ++ [.key (str "tool_calls"), .index i]

def function (i : Nat) : Path := call i ++ [.key (str "function")]

def member : OpenAiMember → Member
  | model => ⟨[], str "model"⟩
  | usage => ⟨[], str "usage"⟩
  | finishReason => ⟨choice, str "finish_reason"⟩
  | content => ⟨message, str "content"⟩
  | toolCalls => ⟨message, str "tool_calls"⟩
  | callId i => ⟨call i, str "id"⟩
  | callArguments i => ⟨function i, str "arguments"⟩
  | callName i => ⟨function i, str "name"⟩

/-- The members whose null is read as if they were absent. -/
def Nullable : OpenAiMember → Prop
  | usage | content | callArguments _ => True
  | _ => False

end OpenAiMember

theorem deserializeText_update {f : Json → Json} {k : Str} (h : str "content" ≠ k) (path : Path)
    (msg : Json) :
    OpenAiProvider.deserializeText (msg.update f (.key k :: path)) =
      OpenAiProvider.deserializeText msg := by
  simp only [OpenAiProvider.deserializeText, Json.contains_update, Json.index_update_ne h]

/-- Content that is null reads as absent content. -/
theorem deserializeText_setNull {members : List (Str × Json)}
    (h : Assoc.find? (str "content") members = none) :
    OpenAiProvider.deserializeText (setNull (str "content") (.object members)) =
      OpenAiProvider.deserializeText (.object members) := by
  unfold OpenAiProvider.deserializeText
  rw [contains_setNull, index_setNull, Json.contains_object_false.mpr h]
  rfl

section

open OpenAiProvider

variable [Platform] {json choice msg : Json} {response : LlmResponse}
  {uses texts : List ContentBlock} {f : Json → Json}

/-- What a change inside the first choice amounts to. -/
theorem choice_update_ok (h : Accepted json response choice msg uses texts) (path : Path) :
    deserializeResponse (json.update f (.key (str "choices") :: .index 0 :: path)) = .ok response ↔
      (choice.update f path).value Json.getString (str "finish_reason") [] =
          .ok response.finishReason ∧
        ∃ msg' uses' texts', (choice.update f path).index (str "message") = .ok msg' ∧
          deserializeToolCalls msg' = .ok uses' ∧ deserializeText msg' = .ok texts' ∧
          uses' ++ texts' = uses ++ texts := by
  obtain ⟨rest, hindex⟩ := firstChoice_ok.mp h.first
  have hfirst : firstChoice (json.update f (.key (str "choices") :: .index 0 :: path)) =
      .ok (choice.update f path) :=
    firstChoice_ok.mpr ⟨rest, Json.index_update hindex _⟩
  rw [deserializeResponse_ok]
  constructor
  · intro ⟨choice', msg', uses', texts', h'⟩
    cases hfirst.symm.trans h'.first
    refine ⟨h'.finishReason, msg', uses', texts', h'.message, h'.toolCalls, h'.text, ?_⟩
    exact (congrArg Message.content (h'.content.symm.trans h.content))
  · intro ⟨hfinish, msg', uses', texts', hmsg, hcalls, htext, heq⟩
    refine ⟨_, msg', uses', texts', ?_, ?_, hfirst, hfinish, hmsg, hcalls, htext, ?_⟩
    · rw [Json.value_update (by decide)]
      exact h.model
    · rw [deserializeUsage_update (by decide)]
      exact h.usage
    · rw [heq, h.content]

/-- What a change inside the message amounts to. -/
theorem message_update_ok (h : Accepted json response choice msg uses texts) (path : Path) :
    deserializeResponse (json.update f
        (.key (str "choices") :: .index 0 :: .key (str "message") :: path)) = .ok response ↔
      ∃ uses' texts', deserializeToolCalls (msg.update f path) = .ok uses' ∧
        deserializeText (msg.update f path) = .ok texts' ∧ uses' ++ texts' = uses ++ texts := by
  rw [choice_update_ok h, Json.value_update (by decide), and_iff_right h.finishReason,
    Json.index_update h.message]
  simp only [Except.ok.injEq, exists_and_left, exists_eq_left']

/-- What a change inside a tool call amounts to. -/
theorem call_update_ok (h : Accepted json response choice msg uses texts) {calls : List Json}
    (hcalls : msg.index (str "tool_calls") = .ok (.array calls)) {i : Nat} {tc : Json}
    (htc : calls[i]? = some tc) (path : Path) :
    deserializeResponse (json.update f (.key (str "choices") :: .index 0 ::
        .key (str "message") :: .key (str "tool_calls") :: .index i :: path)) = .ok response ↔
      deserializeToolCall (tc.update f path) = deserializeToolCall tc := by
  have huses := h.toolCalls
  rw [deserializeToolCalls_of_index hcalls] at huses
  rw [message_update_ok h, deserializeText_update (by decide),
    deserializeToolCalls_of_index (Json.index_update hcalls _),
    ← Except.mapM_modify huses htc]
  constructor
  · intro ⟨uses', texts', huses', htexts, heq⟩
    cases h.text.symm.trans htexts
    rw [huses', List.append_cancel_right heq]
  · intro huses'
    exact ⟨uses, texts, huses', h.text, rfl⟩

theorem node?_choice (h : Accepted json response choice msg uses texts) (path : Path) :
    json.node? (.key (str "choices") :: .index 0 :: path) = choice.node? path := by
  obtain ⟨rest, hindex⟩ := firstChoice_ok.mp h.first
  rw [Json.node?_of_index hindex]
  rfl

theorem node?_message (h : Accepted json response choice msg uses texts) (path : Path) :
    json.node? (OpenAiMember.message ++ path) = msg.node? path := by
  rw [← Json.node?_of_index h.message, ← node?_choice h]
  rfl

/-- A tool call that the response has is one that was decoded. -/
theorem call_of_node? (h : Accepted json response choice msg uses texts) {i : Nat} {path : Path}
    {v : Json} (hv : json.node? (OpenAiMember.call i ++ path) = some v) :
    ∃ calls tc block, msg.index (str "tool_calls") = .ok (.array calls) ∧ calls[i]? = some tc ∧
      deserializeToolCall tc = .ok block ∧ tc.node? path = some v := by
  have hnode : msg.node? (.key (str "tool_calls") :: .index i :: path) = some v := by
    rw [← hv, ← node?_message h]
    rfl
  obtain ⟨members, child, rfl, hfind, hchild⟩ := Json.node?_key hnode
  obtain ⟨calls, tc, rfl, htc, hpath⟩ := Json.node?_index hchild
  have hindex := Json.index_ok.mpr ⟨members, rfl, hfind⟩
  have huses := h.toolCalls
  rw [deserializeToolCalls_of_index hindex] at huses
  obtain ⟨block, hblock⟩ := Except.mapM_returns.mp ⟨uses, huses⟩ tc (List.mem_of_getElem? htc)
  exact ⟨calls, tc, block, hindex, htc, hblock, hpath⟩

theorem toolCall_setNull_id (members : List (Str × Json)) (block : ContentBlock) :
    deserializeToolCall (setNull (str "id") (.object members)) ≠ .ok block := by
  intro h
  obtain ⟨_, _, _, _, _, _, hid, _⟩ := deserializeToolCall_ok.mp h
  exact getString_setNull _ _ _ _ hid

theorem toolCall_setNull_name {tc : Json} {members : List (Str × Json)}
    (h : tc.index (str "function") = .ok (.object members)) (block : ContentBlock) :
    deserializeToolCall (tc.update (setNull (str "name")) [.key (str "function")]) ≠ .ok block := by
  intro hb
  obtain ⟨func, _, _, _, hfunc, _, _, hname, _⟩ := deserializeToolCall_ok.mp hb
  rw [Json.index_update h] at hfunc
  cases hfunc
  exact getString_setNull _ _ _ _ hname

/-- Arguments that are null read as absent ones. -/
theorem toolCall_setNull_arguments {tc : Json} {members : List (Str × Json)}
    (h : tc.index (str "function") = .ok (.object members))
    (hnone : Assoc.find? (str "arguments") members = none) :
    deserializeToolCall (tc.update (setNull (str "arguments")) [.key (str "function")]) =
      deserializeToolCall tc := by
  have hargs : deserializeArguments (setNull (str "arguments") (.object members)) =
      deserializeArguments (.object members) := by
    unfold deserializeArguments
    rw [contains_setNull, index_setNull, Json.contains_object_false.mpr hnone]
    rfl
  unfold deserializeToolCall
  rw [Json.index_update h, h, Json.value_update (by decide), Json.update]
  change (deserializeArguments (setNull _ _) >>= _) = (deserializeArguments _ >>= _)
  rw [hargs, value_setNull (by decide)]

theorem deserializeToolCalls_setNull (members : List (Str × Json)) (blocks : List ContentBlock) :
    deserializeToolCalls (setNull (str "tool_calls") (.object members)) ≠ .ok blocks := by
  unfold deserializeToolCalls
  rw [contains_setNull, index_setNull]
  intro h
  cases h

/-- Which members of an OpenAI response may be null as well as absent. -/
theorem openAi_null (h : deserializeResponse json = .ok response) (m : OpenAiMember)
    (missing : m.member.Missing json) :
    deserializeResponse (m.member.withNull json) = .ok response ↔ m.Nullable := by
  obtain ⟨choice, msg, uses, texts, h⟩ := deserializeResponse_ok.mp h
  obtain ⟨members, hnode, hnone⟩ := missing
  cases m with
  | model =>
    apply iff_of_false _ not_false
    cases hnode
    intro h'
    obtain ⟨_, _, _, _, h'⟩ := deserializeResponse_ok.mp h'
    exact getString_setNull _ _ _ _ h'.model
  | usage =>
    apply iff_of_true _ trivial
    cases hnode
    obtain ⟨rest, hindex⟩ := firstChoice_ok.mp h.first
    apply deserializeResponse_ok.mpr
    refine ⟨choice, msg, uses, texts, ?_, ?_, ?_, h.finishReason, h.message, h.toolCalls, h.text,
      h.content⟩
    · exact (value_setNull (by decide) _ _ _).trans h.model
    · exact (deserializeUsage_setNull _ _ hnone).trans h.usage
    · exact firstChoice_ok.mpr ⟨rest, (index_setNull_ne (by decide) _).trans hindex⟩
  | finishReason =>
    apply iff_of_false _ not_false
    intro h'
    have hchoice := (node?_choice h []).symm.trans hnode
    cases hchoice
    exact getString_setNull _ _ _ _ ((choice_update_ok h []).mp h').1
  | content =>
    apply iff_of_true _ trivial
    have hmsg := (node?_message h []).symm.trans hnode
    cases hmsg
    apply (message_update_ok h []).mpr
    refine ⟨uses, texts, ?_, (deserializeText_setNull hnone).trans h.text, rfl⟩
    rw [← h.toolCalls, Json.update]
    have hne : str "tool_calls" ≠ str "content" := by decide
    simp only [deserializeToolCalls, OpenAiMember.member, contains_setNull_ne hne,
      index_setNull_ne hne]
  | toolCalls =>
    apply iff_of_false _ not_false
    intro h'
    have hmsg := (node?_message h []).symm.trans hnode
    cases hmsg
    obtain ⟨_, _, huses, _⟩ := (message_update_ok h []).mp h'
    exact deserializeToolCalls_setNull _ _ huses
  | callId i =>
    apply iff_of_false _ not_false
    intro h'
    obtain ⟨calls, tc, block, hcalls, htc, hblock, hv⟩ :=
      call_of_node? (v := .object members) h hnode
    cases hv
    exact toolCall_setNull_id _ _ (((call_update_ok h hcalls htc []).mp h').trans hblock)
  | callArguments i =>
    apply iff_of_true _ trivial
    obtain ⟨calls, tc, block, hcalls, htc, hblock, hv⟩ := call_of_node? h hnode
    obtain ⟨_, _, rfl, hfind, hfunc⟩ := Json.node?_key hv
    cases hfunc
    have hindex := Json.index_ok.mpr ⟨_, rfl, hfind⟩
    exact (call_update_ok h hcalls htc _).mpr (toolCall_setNull_arguments hindex hnone)
  | callName i =>
    apply iff_of_false _ not_false
    intro h'
    obtain ⟨calls, tc, block, hcalls, htc, hblock, hv⟩ := call_of_node? h hnode
    obtain ⟨_, _, rfl, hfind, hfunc⟩ := Json.node?_key hv
    cases hfunc
    have hindex := Json.index_ok.mpr ⟨_, rfl, hfind⟩
    exact toolCall_setNull_name hindex _ (((call_update_ok h hcalls htc _).mp h').trans hblock)

end

inductive AnthropicMember where
  | model
  | stopReason
  | usage
  | content
  | blockText (i : Nat)
  | blockId (i : Nat)
  | blockName (i : Nat)

namespace AnthropicMember

def block (i : Nat) : Path := [.key (str "content"), .index i]

def member : AnthropicMember → Member
  | model => ⟨[], str "model"⟩
  | stopReason => ⟨[], str "stop_reason"⟩
  | usage => ⟨[], str "usage"⟩
  | content => ⟨[], str "content"⟩
  | blockText i => ⟨block i, str "text"⟩
  | blockId i => ⟨block i, str "id"⟩
  | blockName i => ⟨block i, str "name"⟩

def BlockType (json : Json) (i : Nat) (type : Str) : Prop :=
  ∃ b, json.node? (block i) = some b ∧ b.index (str "type") = .ok (.string type)

/-- The members whose null is read as if they were absent: the usage, and what
a block of its type does not use. -/
def Nullable (json : Json) : AnthropicMember → Prop
  | usage => True
  | blockText i => ¬ BlockType json i (str "text")
  | blockId i | blockName i => ¬ BlockType json i (str "tool_use")
  | _ => False

end AnthropicMember

section

open AnthropicProvider

variable {json : Json} {response : LlmResponse}

/-- A block of the response, and what a change of it comes to. -/
theorem block_of_node? (h : Accepted json response) {i : Nat} {b : Json}
    (hb : json.node? (AnthropicMember.block i) = some b) :
    (∃ o, deserializeBlock b = .ok o) ∧
    ∀ f : Json → Json,
      (deserializeBlock (f b) = deserializeBlock b →
        deserializeResponse (json.update f (AnthropicMember.block i)) = .ok response) ∧
      ((∀ o, deserializeBlock (f b) ≠ .ok o) →
        deserializeResponse (json.update f (AnthropicMember.block i)) ≠ .ok response) := by
  obtain ⟨members, child, rfl, hfind, hchild⟩ := Json.node?_key hb
  obtain ⟨blocks, b', rfl, hget, hb'⟩ := Json.node?_index hchild
  cases hb'
  have hindex := Json.index_ok.mpr ⟨members, rfl, hfind⟩
  have hcontent := h.content
  rw [deserializeContent_of_index hindex] at hcontent
  cases hparsed : blocks.mapM deserializeBlock with
  | error e =>
    rw [hparsed] at hcontent
    cases hcontent
  | ok parsed =>
    refine ⟨Except.mapM_returns.mp ⟨parsed, hparsed⟩ b (List.mem_of_getElem? hget), ?_⟩
    intro f
    have hupdate : deserializeContent ((Json.object members).update f (AnthropicMember.block i)) =
        ((blocks.modify i f).mapM deserializeBlock).map (fun parsed => parsed.filterMap id) :=
      deserializeContent_of_index (Json.index_update hindex _)
    constructor
    · intro hsame
      apply deserializeResponse_ok.mpr
      refine ⟨?_, ?_, ?_, ?_, h.role⟩
      · exact (Json.value_update (by decide) _ _ _ _).trans h.model
      · exact (Json.value_update (by decide) _ _ _ _).trans h.finishReason
      · exact (deserializeUsage_update (by decide) _ _).trans h.usage
      · rw [hupdate, (Except.mapM_modify hparsed hget).mpr hsame, ← hparsed]
        exact hcontent
    · intro hfails h'
      have hcontent' := (deserializeResponse_ok.mp h').content
      rw [hupdate] at hcontent'
      cases hparsed' : (blocks.modify i f).mapM deserializeBlock with
      | error e =>
        rw [hparsed'] at hcontent'
        cases hcontent'
      | ok parsed' =>
        have hmem : f b ∈ blocks.modify i f := by
          apply List.mem_of_getElem? (i := i)
          rw [List.getElem?_modify_eq, hget]
          rfl
        obtain ⟨o, ho⟩ := Except.mapM_returns.mp ⟨parsed', hparsed'⟩ _ hmem
        exact hfails o ho

theorem type_of_block {b : Json} {o : Option ContentBlock} (h : deserializeBlock b = .ok o) :
    ∃ type, b.value Json.getString (str "type") [] = .ok type := by
  obtain ⟨type, htype, _⟩ := Except.bind_ok.mp h
  exact ⟨type, htype⟩

/-- A null text is an error in a text block and nothing in any other. -/
theorem block_setNull_text {members : List (Str × Json)} {o : Option ContentBlock}
    (h : deserializeBlock (.object members) = .ok o) :
    ((Json.object members).index (str "type") = .ok (.string (str "text")) ∧
      ∀ o', deserializeBlock (setNull (str "text") (.object members)) ≠ .ok o') ∨
    ((Json.object members).index (str "type") ≠ .ok (.string (str "text")) ∧
      deserializeBlock (setNull (str "text") (.object members)) =
        deserializeBlock (.object members)) := by
  obtain ⟨type, htype⟩ := type_of_block h
  have htype' := (value_setNull (k := str "text") (by decide) Json.getString [] _).trans htype
  rw [ne_eq, ← Json.value_getString_iff (by decide), htype, Except.ok.injEq]
  by_cases ht : type = str "text"
  · subst ht
    refine .inl ⟨rfl, ?_⟩
    rw [deserializeBlock_text htype']
    intro o' ho'
    obtain ⟨_, htext, _⟩ := Except.bind_ok.mp ho'
    exact getString_setNull _ _ _ _ htext
  · refine .inr ⟨ht, ?_⟩
    by_cases hu : type = str "tool_use"
    · subst hu
      rw [deserializeBlock_toolUse htype', deserializeBlock_toolUse htype]
      simp only [value_setNull (by decide : str "id" ≠ str "text"),
        value_setNull (by decide : str "name" ≠ str "text"),
        value_setNull (by decide : str "input" ≠ str "text")]
    · rw [deserializeBlock_other htype' ht hu, deserializeBlock_other htype ht hu]

/-- A null id or name is an error in a tool call and nothing in any other block. -/
theorem block_setNull_toolUse {k : Str} (hk : k = str "id" ∨ k = str "name")
    {members : List (Str × Json)} {o : Option ContentBlock}
    (h : deserializeBlock (.object members) = .ok o) :
    ((Json.object members).index (str "type") = .ok (.string (str "tool_use")) ∧
      ∀ o', deserializeBlock (setNull k (.object members)) ≠ .ok o') ∨
    ((Json.object members).index (str "type") ≠ .ok (.string (str "tool_use")) ∧
      deserializeBlock (setNull k (.object members)) = deserializeBlock (.object members)) := by
  have hne : str "type" ≠ k ∧ str "text" ≠ k := by
    rcases hk with rfl | rfl
    · decide
    · decide
  obtain ⟨type, htype⟩ := type_of_block h
  have htype' := (value_setNull hne.1 Json.getString [] _).trans htype
  rw [ne_eq, ← Json.value_getString_iff (by decide), htype, Except.ok.injEq]
  by_cases hu : type = str "tool_use"
  · subst hu
    refine .inl ⟨rfl, ?_⟩
    rw [deserializeBlock_toolUse htype']
    intro o' ho'
    obtain ⟨_, hid, ho'⟩ := Except.bind_ok.mp ho'
    obtain ⟨_, hname, _⟩ := Except.bind_ok.mp ho'
    rcases hk with rfl | rfl
    · exact getString_setNull _ _ _ _ hid
    · exact getString_setNull _ _ _ _ hname
  · refine .inr ⟨hu, ?_⟩
    by_cases ht : type = str "text"
    · subst ht
      rw [deserializeBlock_text htype', deserializeBlock_text htype, value_setNull hne.2]
    · rw [deserializeBlock_other htype' ht hu, deserializeBlock_other htype ht hu]

/-- A member that a block's type does not use may be null, one that it uses
may not. -/
theorem block_null (h : Accepted json response) {i : Nat} {members : List (Str × Json)}
    {k type : Str} (hnode : json.node? (AnthropicMember.block i) = some (.object members))
    (hblock : ∀ o, deserializeBlock (.object members) = .ok o →
      ((Json.object members).index (str "type") = .ok (.string type) ∧
        ∀ o', deserializeBlock (setNull k (.object members)) ≠ .ok o') ∨
      ((Json.object members).index (str "type") ≠ .ok (.string type) ∧
        deserializeBlock (setNull k (.object members)) = deserializeBlock (.object members))) :
    deserializeResponse (json.update (setNull k) (AnthropicMember.block i)) = .ok response ↔
      ¬ AnthropicMember.BlockType json i type := by
  obtain ⟨⟨o, ho⟩, hupdate⟩ := block_of_node? h hnode
  obtain ⟨hkeeps, hfails⟩ := hupdate (setNull k)
  rcases hblock o ho with ⟨htype, herror⟩ | ⟨htype, hsame⟩
  · apply iff_of_false (hfails herror)
    intro hnot
    exact hnot ⟨_, hnode, htype⟩
  · apply iff_of_true (hkeeps hsame)
    intro ⟨b, hb, hbtype⟩
    cases hnode.symm.trans hb
    exact htype hbtype

/-- Which members of an Anthropic response may be null as well as absent. -/
theorem anthropic_null (h : deserializeResponse json = .ok response) (m : AnthropicMember)
    (missing : m.member.Missing json) :
    deserializeResponse (m.member.withNull json) = .ok response ↔ m.Nullable json := by
  have h := deserializeResponse_ok.mp h
  obtain ⟨members, hnode, hnone⟩ := missing
  cases m with
  | model =>
    apply iff_of_false _ not_false
    cases hnode
    intro h'
    exact getString_setNull _ _ _ _ (deserializeResponse_ok.mp h').model
  | stopReason =>
    apply iff_of_false _ not_false
    cases hnode
    intro h'
    exact getString_setNull _ _ _ _ (deserializeResponse_ok.mp h').finishReason
  | usage =>
    apply iff_of_true _ trivial
    cases hnode
    have hne : str "content" ≠ str "usage" := by decide
    apply deserializeResponse_ok.mpr
    refine ⟨?_, ?_, ?_, ?_, h.role⟩
    · exact (value_setNull (by decide) _ _ _).trans h.model
    · exact (value_setNull (by decide) _ _ _).trans h.finishReason
    · exact (deserializeUsage_setNull _ _ hnone).trans h.usage
    · rw [← h.content]
      simp only [deserializeContent, Member.withNull, AnthropicMember.member, Json.update,
        contains_setNull_ne hne, index_setNull_ne hne]
  | content =>
    apply iff_of_false _ not_false
    cases hnode
    intro h'
    have hcontent := (deserializeResponse_ok.mp h').content
    unfold deserializeContent at hcontent
    simp only [Member.withNull, AnthropicMember.member, Json.update] at hcontent
    rw [contains_setNull, index_setNull] at hcontent
    cases hcontent
  | blockText i => exact block_null h hnode (fun o ho => block_setNull_text ho)
  | blockId i => exact block_null h hnode (fun o ho => block_setNull_toolUse (.inl rfl) ho)
  | blockName i => exact block_null h hnode (fun o ho => block_setNull_toolUse (.inr rfl) ho)

end

/-- A null member changes nothing exactly where it is one of the members whose
reading allows for it. -/
theorem null_iff_absent [Platform] (json : Json) (response : LlmResponse) :
    (∀ m : OpenAiMember, OpenAiProvider.deserializeResponse json = .ok response →
      m.member.Missing json →
      (OpenAiProvider.deserializeResponse (m.member.withNull json) = .ok response ↔
        m.Nullable)) ∧
    ∀ m : AnthropicMember, AnthropicProvider.deserializeResponse json = .ok response →
      m.member.Missing json →
      (AnthropicProvider.deserializeResponse (m.member.withNull json) = .ok response ↔
        m.Nullable json) :=
  ⟨fun m h missing => openAi_null h m missing, fun m h missing => anthropic_null h m missing⟩

/-- A text reply that names no model. -/
def anonymous : Json :=
  .objectOf [(str "choices", .array [.objectOf [(str "message",
    .objectOf [(str "content", .string (str "Hello!"))])]])]

/-- With a null for its model the reply is rejected. -/
theorem not_null_anonymous :
    letI := Platform.reference
    ¬ ∀ json response (m : OpenAiMember),
      OpenAiProvider.deserializeResponse json = .ok response → m.member.Missing json →
      OpenAiProvider.deserializeResponse (m.member.withNull json) = .ok response := by
  let platform := Platform.reference
  intro h
  have haccepted : OpenAiProvider.deserializeResponse anonymous =
      .ok { message := .ofText .assistant (str "Hello!") } := rfl
  have hmissing : OpenAiMember.model.member.Missing anonymous := ⟨_, rfl, rfl⟩
  exact (openAi_null haccepted .model hmissing).mp (h _ _ _ haccepted hmissing)

end Forgeant.Proofs.NullMembers
