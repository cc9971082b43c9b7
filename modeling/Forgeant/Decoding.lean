import Forgeant.Conversion

namespace Forgeant

instance : Inhabited TextBlock := ⟨{ text := [] }⟩

instance : Inhabited ToolUseBlock := ⟨{ id := [], name := [], input := .null }⟩

instance : Inhabited ToolResultBlock := ⟨{ toolUseId := [], content := [] }⟩

instance : Inhabited ContentBlock := ⟨.text default⟩

instance : Inhabited Message := ⟨{ role := .user, content := [] }⟩

instance : Inhabited Conversation := ⟨{}⟩

/-- `from_json` into a target that holds something already. What it holds when
the call throws is left out. -/
def TextBlock.fromJsonTo (j : Json) (block : TextBlock) : Except StdException TextBlock := do
  return { block with text := ← j.stringAt (str "text") }

def ToolUseBlock.fromJsonTo (j : Json) (block : ToolUseBlock) :
    Except StdException ToolUseBlock := do
  let block := { block with id := ← j.stringAt (str "id") }
  let block := { block with name := ← j.stringAt (str "name") }
  return { block with input := ← j.atKey (str "input") }

def ToolResultBlock.fromJsonTo (j : Json) (block : ToolResultBlock) :
    Except StdException ToolResultBlock := do
  let block := { block with toolUseId := ← j.stringAt (str "tool_use_id") }
  let block := { block with content := ← j.stringAt (str "content") }
  return { block with isError := ← j.value Json.getBool (str "is_error") false }

/-- Each branch fills a block of its own and assigns it to the target. -/
def ContentBlock.fromJsonTo (j : Json) (_block : ContentBlock) :
    Except StdException ContentBlock := do
  let type ← j.stringAt (str "type")
  if type = str "text" then
    let b ← TextBlock.fromJsonTo j default
    return .text b
  else if type = str "tool_use" then
    let b ← ToolUseBlock.fromJsonTo j default
    return .toolUse b
  else if type = str "tool_result" then
    let b ← ToolResultBlock.fromJsonTo j default
    return .toolResult b
  else .error (.invalidArgument (str "unknown content block type: " ++ type))

/-- `j.get<ContentBlock>()`. -/
def ContentBlock.get (j : Json) : Except StdException ContentBlock := fromJsonTo j default

def Message.fromJsonTo (j : Json) (msg : Message) : Except StdException Message := do
  let msg := { msg with role := ← Role.fromJson (← j.atKey (str "role")) }
  let msg := { msg with content := [] }
  (← j.elementsAt (str "content")).foldlM
    (fun msg blockJson => do
      return { msg with content := msg.content ++ [← ContentBlock.get blockJson] }) msg

/-- `j.get<Message>()`. -/
def Message.get (j : Json) : Except StdException Message := fromJsonTo j default

def Conversation.fromJsonTo (j : Json) (conv : Conversation) :
    Except StdException Conversation := do
  let conv ←
    if j.contains (str "system_prompt") then do
      let prompt ← j.stringAt (str "system_prompt")
      pure (conv.setSystemPrompt prompt)
    else pure conv
  (← j.elementsAt (str "messages")).foldlM
    (fun conv msgJson => do return conv.add (← Message.get msgJson)) conv

variable {j : Json}

theorem ContentBlock.fromJsonTo_eq (block : ContentBlock) : fromJsonTo j block = fromJson j := rfl

theorem ContentBlock.get_eq (j : Json) : get j = fromJson j := fromJsonTo_eq _

theorem Message.foldl_push (blocks : List ContentBlock) (msg : Message) :
    blocks.foldl (fun msg block => { msg with content := msg.content ++ [block] }) msg =
      { msg with content := msg.content ++ blocks } := by
  induction blocks generalizing msg with
  | nil => simp
  | cons b bs ih => simp [ih]

theorem Message.fromJsonTo_eq (msg : Message) : fromJsonTo j msg = fromJson j := by
  have hget : ContentBlock.get = ContentBlock.fromJson := funext ContentBlock.get_eq
  unfold fromJsonTo fromJson
  simp only [hget, Except.foldlM_eq_mapM, foldl_push, List.nil_append]

theorem Message.get_eq (j : Json) : get j = fromJson j := fromJsonTo_eq _

/-- A target with a decoded conversation put into it: what it held comes first,
and its prompt stays where there is no other. -/
def Conversation.filledWith (conv decoded : Conversation) : Conversation where
  systemPrompt := decoded.systemPrompt.or conv.systemPrompt
  messages := conv.messages ++ decoded.messages

theorem Conversation.fromJsonTo_eq (conv : Conversation) :
    fromJsonTo j conv = do return conv.filledWith (← fromJson j) := by
  have hget : Message.get = Message.fromJson := funext Message.get_eq
  unfold fromJsonTo fromJson promptFromJson
  simp only [hget, Except.foldlM_eq_mapM, foldl_add]
  split
  · simp only [bind_assoc, pure_bind]
    rfl
  · simp only [bind_assoc, pure_bind]
    rfl

@[simp] theorem Conversation.default_filledWith (conv : Conversation) :
    Conversation.filledWith default conv = conv := by
  obtain ⟨prompt, messages⟩ := conv
  cases prompt <;> rfl

/-- Nothing of a target is left when a conversation is put into it just when it
has no messages and the conversation brings a prompt or it has none. -/
theorem Conversation.filledWith_eq_iff {conv decoded : Conversation} :
    conv.filledWith decoded = decoded ↔
      conv.messages = [] ∧ (decoded.systemPrompt.isSome ∨ conv.systemPrompt = none) := by
  obtain ⟨prompt, messages⟩ := decoded
  simp only [filledWith, mk.injEq, List.append_left_eq_self]
  rw [and_comm]
  cases prompt <;> simp

theorem Conversation.filledWith_twice_iff {conv decoded : Conversation} :
    (conv.filledWith decoded).filledWith decoded = conv.filledWith decoded ↔
      decoded.messages = [] := by
  obtain ⟨prompt, messages⟩ := decoded
  simp only [filledWith, mk.injEq, List.append_right_eq_self]
  cases prompt <;> simp

inductive Target where
  | textBlock (block : TextBlock)
  | toolUseBlock (block : ToolUseBlock)
  | toolResultBlock (block : ToolResultBlock)
  | contentBlock (block : ContentBlock)
  | message (msg : Message)
  | conversation (conv : Conversation)

namespace Target

def fromJsonTo (j : Json) : Target → Except StdException Target
  | .textBlock block => return .textBlock (← block.fromJsonTo j)
  | .toolUseBlock block => return .toolUseBlock (← block.fromJsonTo j)
  | .toolResultBlock block => return .toolResultBlock (← block.fromJsonTo j)
  | .contentBlock block => return .contentBlock (← block.fromJsonTo j)
  | .message msg => return .message (← msg.fromJsonTo j)
  | .conversation conv => return .conversation (← conv.fromJsonTo j)

/-- A new object of the same type. -/
def fresh : Target → Target
  | .textBlock _ => .textBlock default
  | .toolUseBlock _ => .toolUseBlock default
  | .toolResultBlock _ => .toolResultBlock default
  | .contentBlock _ => .contentBlock default
  | .message _ => .message default
  | .conversation _ => .conversation default

/-- `j.get<X>()` for the type `X` of the target. -/
def get (j : Json) (target : Target) : Except StdException Target := fromJsonTo j target.fresh

end Target

end Forgeant
