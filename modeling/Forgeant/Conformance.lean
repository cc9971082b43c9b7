import Forgeant.Param

namespace Forgeant

inductive JsonType where
  | null
  | boolean
  | integer
  | number
  | string
  | array
  | object

namespace JsonType

def name : JsonType → Str
  | null => str "null"
  | boolean => str "boolean"
  | integer => str "integer"
  | number => str "number"
  | string => str "string"
  | array => str "array"
  | object => str "object"

/-- The values of a type. To JSON Schema a number without a fraction is an
integer. -/
def Holds : JsonType → Json → Prop
  | null, j => j = .null
  | boolean, j => ∃ b, j = .boolean b
  | integer, j =>
    (∃ n, j = .integer n) ∨ ∃ d m, j = .number d ∧ d.IsInteger m
  | number, j => (∃ n, j = .integer n) ∨ ∃ d, j = .number d
  | string, j => ∃ s, j = .string s
  | array, j => ∃ elems, j = .array elems
  | object, j => ∃ members, j = .object members

end JsonType

/-- The value satisfies the schema. -/
inductive Satisfies : Json → Json → Prop
  | intro {schema j : Json}
      (type : ∀ type : JsonType, schema.index (str "type") = .ok (.string type.name) → type.Holds j)
      (enum : ∀ values, schema.index (str "enum") = .ok (.array values) → j ∈ values)
      (required : ∀ names members, schema.index (str "required") = .ok (.array names) →
        j = .object members → ∀ name, .string name ∈ names → j.contains name = true)
      (property : ∀ props k s v, schema.index (str "properties") = .ok (.object props) →
        Assoc.find? k props = some s → j.index k = .ok v → Satisfies s v)
      (item : ∀ s elems e, schema.index (str "items") = .ok s → j = .array elems → e ∈ elems →
        Satisfies s e)
      (closed : schema.index (str "additionalProperties") = .ok (.boolean false) →
        ∀ k v, j.index k = .ok v → ∃ props s,
          schema.index (str "properties") = .ok (.object props) ∧ Assoc.find? k props = some s) :
      Satisfies schema j

/-- What satisfies the schema of the type is read. -/
def OutputType.Adequate {T : Type} (output : OutputType T) : Prop :=
  ∀ j, Satisfies output.schema j → ∃ v, output.get j = .ok v

/-- A final reply to a request for this schema starts with a text that satisfies
the schema as it is sent. -/
def LlmProvider.Honours {σ : Type} [Platform] (provider : LlmProvider σ) (schema : Json) : Prop :=
  ∀ {c request w response v closed}, provider.chat c request w = (.ok response, v) →
    response.message.toolUses = [] → request.outputSchema = some schema →
    closedSchema schema = .ok closed →
    ∃ text j, response.message.texts.head? = some text ∧ Json.parse text = .ok j ∧
      Satisfies closed j

/-- The tools that a reply uses are among those offered, and their inputs satisfy
the schemas that were offered with them. -/
def LlmProvider.HonoursTools {σ : Type} (provider : LlmProvider σ) (offered : List ToolView) :
    Prop :=
  ∀ {c request w response v use}, provider.chat c request w = (.ok response, v) →
    request.tools = offered → use ∈ response.message.toolUses →
    ∃ view ∈ offered, view.name = use.name ∧ Satisfies view.parameters use.input

section

variable {σ : Type}

def firstTyped (tools : List (TypedTool σ)) (name : Str) : Option (TypedTool σ) :=
  tools.find? (fun tool => tool.name == name)

/-- The function of the tool ran on what the input was read as, and what it
returned or threw is the outcome. -/
def TypedTool.Ran (tool : TypedTool σ) (input : Json) (w : σ)
    (outcome : Except StdException Json) (v : σ) : Prop :=
  ∃ p result, tool.params.get input = .ok p ∧ tool.func p w = (result, v) ∧
    outcome = result.map tool.toJson

/-- The events lead from the first world to the last, where the world is changed by
the provider and by functions of typed tools that ran, and not by a call of a tool
whose input is not read, or of one that there is not. -/
inductive Handles (provider : LlmProvider σ) (tools : List (TypedTool σ)) :
    σ → List Event → σ → Prop
  | nil (w : σ) : Handles provider tools w [] w
  | chat {w v u : σ} {es : List Event} {c : Conversation} {request : ChatRequest}
      {outcome : Except StdException LlmResponse} (h : provider.chat c request w = (outcome, v))
      (rest : Handles provider tools v es u) :
      Handles provider tools w (.chat c request outcome :: es) u
  | ran {w v u : σ} {es : List Event} {name : Str} {input : Json}
      {outcome : Except StdException Json} {tool : TypedTool σ}
      (found : firstTyped tools name = some tool) (ran : tool.Ran input w outcome v)
      (rest : Handles provider tools v es u) :
      Handles provider tools w (.execute name input outcome :: es) u
  | unread {w u : σ} {es : List Event} {name : Str} {input : Json} {e : StdException}
      {tool : TypedTool σ} (found : firstTyped tools name = some tool)
      (unread : tool.params.get input = .error e) (rest : Handles provider tools w es u) :
      Handles provider tools w (.execute name input (.error e) :: es) u
  | unknown {w u : σ} {es : List Event} {name : Str} {input : Json}
      (missing : firstTyped tools name = none) (rest : Handles provider tools w es u) :
      Handles provider tools w
        (.execute name input (.error (.runtimeError (str "unknown tool: " ++ name))) :: es) u

end

end Forgeant
