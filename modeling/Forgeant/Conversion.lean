import Forgeant.Types
import Forgeant.Json.Get

namespace Forgeant

/-- `j.at(key)`. -/
def Json.atKey (j : Json) (key : Str) : Except StdException Json :=
  match j with
  | .object members =>
    match Assoc.find? key members with
    | some v => .ok v
    | none => .error (.outOfRange (str "Json::at: key not found: " ++ key))
  | _ => .error (.outOfRange (str "Json::at: not an object"))

theorem Json.atKey_ok {j v : Json} {key : Str} : j.atKey key = .ok v ↔ j.index key = .ok v := by
  cases j with
  | object members =>
    simp only [atKey, index]
    cases Assoc.find? key members <;> simp
  | _ => simp [atKey, index]

/-- `j.at(key).get<std::string>()`. -/
def Json.stringAt (j : Json) (key : Str) : Except StdException Str := do
  (← j.atKey key).getString

theorem Json.stringAt_ok {j : Json} {key s : Str} :
    j.stringAt key = .ok s ↔ j.index key = .ok (.string s) := by
  simp only [stringAt, Except.bind_ok, atKey_ok, getString_ok]
  exact exists_eq_right

/-- The elements of `j.at(key)`. -/
def Json.elementsAt (j : Json) (key : Str) : Except StdException (List Json) := do
  (← j.atKey key).elements

theorem Json.elementsAt_ok {j : Json} {key : Str} {elems : List Json} :
    j.elementsAt key = .ok elems ↔ j.index key = .ok (.array elems) := by
  simp only [elementsAt, Except.bind_ok, atKey_ok, elements_ok]
  exact exists_eq_right

def Message.toJson (msg : Message) : Json :=
  .object (Assoc.set (str "content") (.array (msg.content.map ContentBlock.toJson))
    (Assoc.set (str "role") msg.role.toJson []))

def Conversation.toJson (conv : Conversation) : Json :=
  .object (Assoc.set (str "messages") (.array (conv.messages.map Message.toJson))
    (Assoc.setSome (str "system_prompt") (conv.systemPrompt.map .string)
      (Assoc.ofList [(str "messages", .array [])])))

def Role.fromJson (j : Json) : Except StdException Role := do
  let s ← j.getString
  if s = str "system" then return .system
  else if s = str "user" then return .user
  else if s = str "assistant" then return .assistant
  else if s = str "tool" then return .tool
  else .error (.invalidArgument (str "invalid role: " ++ s))

def TextBlock.fromJson (j : Json) : Except StdException TextBlock := do
  let text ← j.stringAt (str "text")
  return { text }

def ToolUseBlock.fromJson (j : Json) : Except StdException ToolUseBlock := do
  let id ← j.stringAt (str "id")
  let name ← j.stringAt (str "name")
  let input ← j.atKey (str "input")
  return { id, name, input }

def ToolResultBlock.fromJson (j : Json) : Except StdException ToolResultBlock := do
  let toolUseId ← j.stringAt (str "tool_use_id")
  let content ← j.stringAt (str "content")
  let isError ← j.value Json.getBool (str "is_error") false
  return { toolUseId, content, isError }

def ContentBlock.fromJson (j : Json) : Except StdException ContentBlock := do
  let type ← j.stringAt (str "type")
  if type = str "text" then return .text (← TextBlock.fromJson j)
  else if type = str "tool_use" then return .toolUse (← ToolUseBlock.fromJson j)
  else if type = str "tool_result" then return .toolResult (← ToolResultBlock.fromJson j)
  else .error (.invalidArgument (str "unknown content block type: " ++ type))

def Message.fromJson (j : Json) : Except StdException Message := do
  let role ← Role.fromJson (← j.atKey (str "role"))
  let content ← (← j.elementsAt (str "content")).mapM ContentBlock.fromJson
  return { role, content }

/-- The conversation before any of its messages is added. -/
def Conversation.promptFromJson (j : Json) : Except StdException Conversation :=
  if j.contains (str "system_prompt") then do
    let prompt ← j.stringAt (str "system_prompt")
    return ({} : Conversation).setSystemPrompt prompt
  else return {}

def Conversation.fromJson (j : Json) : Except StdException Conversation := do
  let conv ← promptFromJson j
  let messages ← (← j.elementsAt (str "messages")).mapM Message.fromJson
  return messages.foldl Conversation.add conv

variable {j : Json}

theorem Role.fromJson_ok {role : Role} : Role.fromJson j = .ok role ↔ j = role.toJson := by
  constructor
  · intro h
    obtain ⟨s, hs, hrole⟩ := Except.bind_ok.mp h
    rw [Json.getString_ok.mp hs]
    split at hrole
    · subst s
      cases hrole
      rfl
    · split at hrole
      · subst s
        cases hrole
        rfl
      · split at hrole
        · subst s
          cases hrole
          rfl
        · split at hrole
          · subst s
            cases hrole
            rfl
          · cases hrole
  · intro h
    subst h
    cases role <;> rfl

theorem TextBlock.fromJson_ok {block : TextBlock} :
    TextBlock.fromJson j = .ok block ↔ j.index (str "text") = .ok (.string block.text) := by
  simp only [TextBlock.fromJson, Except.bind_ok, Except.pure_ok, Json.stringAt_ok]
  constructor
  · rintro ⟨_, h, rfl⟩
    exact h
  · intro h
    exact ⟨_, h, rfl⟩

theorem ToolUseBlock.fromJson_ok {block : ToolUseBlock} :
    ToolUseBlock.fromJson j = .ok block ↔
      j.index (str "id") = .ok (.string block.id) ∧
      j.index (str "name") = .ok (.string block.name) ∧
      j.index (str "input") = .ok block.input := by
  simp only [ToolUseBlock.fromJson, Except.bind_ok, Except.pure_ok, Json.stringAt_ok, Json.atKey_ok]
  constructor
  · rintro ⟨_, hid, _, hname, _, hinput, rfl⟩
    exact ⟨hid, hname, hinput⟩
  · intro ⟨hid, hname, hinput⟩
    exact ⟨_, hid, _, hname, _, hinput, rfl⟩

theorem ToolResultBlock.fromJson_ok {block : ToolResultBlock} :
    ToolResultBlock.fromJson j = .ok block ↔
      j.index (str "tool_use_id") = .ok (.string block.toolUseId) ∧
      j.index (str "content") = .ok (.string block.content) ∧
      j.value Json.getBool (str "is_error") false = .ok block.isError := by
  simp only [ToolResultBlock.fromJson, Except.bind_ok, Except.pure_ok, Json.stringAt_ok]
  constructor
  · rintro ⟨_, hid, _, hcontent, _, herror, rfl⟩
    exact ⟨hid, hcontent, herror⟩
  · intro ⟨hid, hcontent, herror⟩
    exact ⟨_, hid, _, hcontent, _, herror, rfl⟩

/-- The tag of a block's alternative, and the reading of its own members. -/
def ContentBlock.ReadFrom (j : Json) : ContentBlock → Prop
  | .text block =>
    j.index (str "type") = .ok (.string (str "text")) ∧ TextBlock.fromJson j = .ok block
  | .toolUse block =>
    j.index (str "type") = .ok (.string (str "tool_use")) ∧ ToolUseBlock.fromJson j = .ok block
  | .toolResult block =>
    j.index (str "type") = .ok (.string (str "tool_result")) ∧
      ToolResultBlock.fromJson j = .ok block

theorem ContentBlock.fromJson_ok {block : ContentBlock} :
    ContentBlock.fromJson j = .ok block ↔ block.ReadFrom j := by
  constructor
  · intro h
    obtain ⟨type, htype, h⟩ := Except.bind_ok.mp h
    rw [Json.stringAt_ok] at htype
    split at h
    · subst type
      obtain ⟨b, hb, h⟩ := Except.bind_ok.mp h
      cases h
      exact ⟨htype, hb⟩
    · split at h
      · subst type
        obtain ⟨b, hb, h⟩ := Except.bind_ok.mp h
        cases h
        exact ⟨htype, hb⟩
      · split at h
        · subst type
          obtain ⟨b, hb, h⟩ := Except.bind_ok.mp h
          cases h
          exact ⟨htype, hb⟩
        · cases h
  · intro h
    cases block with
    | text b =>
      exact Except.bind_ok.mpr ⟨_, Json.stringAt_ok.mpr h.1, Except.bind_ok.mpr ⟨b, h.2, rfl⟩⟩
    | toolUse b =>
      exact Except.bind_ok.mpr ⟨_, Json.stringAt_ok.mpr h.1, Except.bind_ok.mpr ⟨b, h.2, rfl⟩⟩
    | toolResult b =>
      exact Except.bind_ok.mpr ⟨_, Json.stringAt_ok.mpr h.1, Except.bind_ok.mpr ⟨b, h.2, rfl⟩⟩

theorem Message.fromJson_ok {msg : Message} :
    Message.fromJson j = .ok msg ↔
      j.index (str "role") = .ok msg.role.toJson ∧
      ∃ elems, j.index (str "content") = .ok (.array elems) ∧
        elems.mapM ContentBlock.fromJson = .ok msg.content := by
  simp only [Message.fromJson, Except.bind_ok, Except.pure_ok, Json.atKey_ok, Json.elementsAt_ok,
    Role.fromJson_ok]
  constructor
  · rintro ⟨_, hrole, _, rfl, elems, helems, _, hblocks, rfl⟩
    exact ⟨hrole, elems, helems, hblocks⟩
  · intro ⟨hrole, elems, helems, hblocks⟩
    exact ⟨_, hrole, _, rfl, elems, helems, _, hblocks, rfl⟩

/-- The prompt is the member `system_prompt`, if there is one. -/
def PromptFrom (j : Json) : Option Str → Prop
  | some prompt => j.index (str "system_prompt") = .ok (.string prompt)
  | none => j.contains (str "system_prompt") = false

theorem Conversation.foldl_add (messages : List Message) (conv : Conversation) :
    messages.foldl Conversation.add conv = conv.extend messages := by
  induction messages generalizing conv with
  | nil => exact conv.extend_nil.symm
  | cons m ms ih => rw [List.foldl_cons, ih, add_eq_extend, extend_extend, List.singleton_append]

theorem Conversation.promptFromJson_ok {conv : Conversation} :
    Conversation.promptFromJson j = .ok conv ↔
      PromptFrom j conv.systemPrompt ∧ conv.messages = [] := by
  obtain ⟨systemPrompt, messages⟩ := conv
  unfold promptFromJson
  split
  · rename_i hcontains
    simp only [Except.bind_ok, Except.pure_ok, Json.stringAt_ok]
    constructor
    · rintro ⟨prompt, hprompt, heq⟩
      cases heq
      exact ⟨hprompt, rfl⟩
    · intro ⟨hprompt, hmessages⟩
      cases systemPrompt with
      | some prompt => exact ⟨prompt, hprompt, by rw [show messages = [] from hmessages]; rfl⟩
      | none => exact absurd hcontains (Bool.eq_false_iff.mp hprompt)
  · rename_i hcontains
    rw [Except.pure_ok]
    constructor
    · intro heq
      cases heq
      exact ⟨Bool.eq_false_iff.mpr hcontains, rfl⟩
    · intro ⟨hprompt, hmessages⟩
      cases systemPrompt with
      | some prompt => exact absurd (Json.contains_of_index hprompt) hcontains
      | none => rw [show messages = [] from hmessages]

theorem Conversation.fromJson_ok {conv : Conversation} :
    Conversation.fromJson j = .ok conv ↔
      PromptFrom j conv.systemPrompt ∧
      ∃ elems, j.index (str "messages") = .ok (.array elems) ∧
        elems.mapM Message.fromJson = .ok conv.messages := by
  simp only [fromJson, Except.bind_ok, Except.pure_ok, Json.elementsAt_ok, foldl_add]
  constructor
  · rintro ⟨start, hstart, elems, helems, messages, hmessages, rfl⟩
    obtain ⟨hprompt, hnil⟩ := promptFromJson_ok.mp hstart
    refine ⟨hprompt, elems, helems, ?_⟩
    rw [extend_messages, hnil, List.nil_append]
    exact hmessages
  · intro ⟨hprompt, elems, helems, hmessages⟩
    exact ⟨{ systemPrompt := conv.systemPrompt }, promptFromJson_ok.mpr ⟨hprompt, rfl⟩, elems,
      helems, conv.messages, hmessages, rfl⟩

end Forgeant
