import Forgeant.Json.Path
import Mathlib.Logic.Relation

namespace Forgeant

/-- `SchemaBuilder`. From its constructor on `schema_` is an object, and what
it has at `properties` is one too. -/
structure SchemaBuilder where
  schema_ : List (Str × Json)
  properties : ∀ v, Assoc.find? (str "properties") schema_ = some v → ∃ props, v = .object props

namespace SchemaBuilder

/-- `schema_[key] = value`, for the keys other than `properties`. -/
def assign (builder : SchemaBuilder) (key : Str) (value : Json)
    (other : str "properties" ≠ key) : SchemaBuilder where
  schema_ := Assoc.set key value builder.schema_
  properties := by
    rw [Assoc.find?_set_ne other]
    exact builder.properties

/-- The constructor. -/
def make (type : Str) : SchemaBuilder where
  schema_ := Assoc.set (str "type") (.string type) []
  properties := by
    rw [Assoc.find?_set_ne (by decide)]
    intro v h
    cases h

def description (builder : SchemaBuilder) (desc : Str) : SchemaBuilder :=
  builder.assign (str "description") (.string desc) (by decide)

def defaultValue (builder : SchemaBuilder) (value : Json) : SchemaBuilder :=
  builder.assign (str "default") value (by decide)

def enumValues (builder : SchemaBuilder) (values : List Str) : SchemaBuilder :=
  builder.assign (str "enum") (.array (values.map .string)) (by decide)

/-- The properties so far; there are none before the first. -/
def props (builder : SchemaBuilder) : List (Str × Json) :=
  match Assoc.find? (str "properties") builder.schema_ with
  | some (.object props) => props
  | _ => []

def property (builder : SchemaBuilder) (name : Str) (propSchema : Json) : SchemaBuilder where
  schema_ := Assoc.set (str "properties") (.object (Assoc.set name propSchema builder.props))
    builder.schema_
  properties := by
    rw [Assoc.find?_set_self]
    intro v h
    cases h
    exact ⟨_, rfl⟩

def required (builder : SchemaBuilder) (fields : List Str) : SchemaBuilder :=
  builder.assign (str "required") (.array (fields.map .string)) (by decide)

def items (builder : SchemaBuilder) (itemSchema : Json) : SchemaBuilder :=
  builder.assign (str "items") itemSchema (by decide)

def build (builder : SchemaBuilder) : Json := .object builder.schema_

end SchemaBuilder

namespace Schema

def string : SchemaBuilder := .make (str "string")
def integer : SchemaBuilder := .make (str "integer")
def number : SchemaBuilder := .make (str "number")
def boolean : SchemaBuilder := .make (str "boolean")
def object : SchemaBuilder := .make (str "object")
def array : SchemaBuilder := .make (str "array")

end Schema

/-- The builders that calls of `Schema` and `SchemaBuilder` lead to, with
built schemas for the properties and items. -/
inductive SchemaBuilder.Made : SchemaBuilder → Prop
  | string : Made Schema.string
  | integer : Made Schema.integer
  | number : Made Schema.number
  | boolean : Made Schema.boolean
  | object : Made Schema.object
  | array : Made Schema.array
  | description {b : SchemaBuilder} (h : Made b) (desc : Str) : Made (b.description desc)
  | defaultValue {b : SchemaBuilder} (h : Made b) (value : Json) : Made (b.defaultValue value)
  | enumValues {b : SchemaBuilder} (h : Made b) (values : List Str) : Made (b.enumValues values)
  | required {b : SchemaBuilder} (h : Made b) (fields : List Str) : Made (b.required fields)
  | property {b p : SchemaBuilder} (h : Made b) (name : Str) (hp : Made p) :
      Made (b.property name p.build)
  | items {b p : SchemaBuilder} (h : Made b) (hp : Made p) : Made (b.items p.build)

/-- The schema says `"type": "object"`. -/
def isObjectType (members : List (Str × Json)) : Bool :=
  match Assoc.find? (str "type") members with
  | some (.string type) => type == str "object"
  | _ => false

def Json.IsObjectSchema (j : Json) : Prop := ∃ members, j = .object members ∧ isObjectType members

def closeRoot (members : List (Str × Json)) : List (Str × Json) :=
  if isObjectType members then Assoc.set (str "additionalProperties") (.boolean false) members
  else members

/-- The schema with every subschema of type object closed, itself, those of
its properties and those of its items, and nothing else changed. -/
def closeSchema : Json → Json
  | .object members => .object (closeRoot (closeMembers members))
  | j => j
where
  closeMembers : List (Str × Json) → List (Str × Json)
    | [] => []
    | (k, v) :: ms =>
      (k, if k = str "properties" then closeProperties v
        else if k = str "items" then closeSchema v else v) :: closeMembers ms
  closeProperties : Json → Json
    | .object props => .object (closeEach props)
    | j => j
  closeEach : List (Str × Json) → List (Str × Json)
    | [] => []
    | (k, v) :: ms => (k, closeSchema v) :: closeEach ms

/-- `t` stands in `s` as the schema of a property or of the items. -/
inductive SubschemaOf : Json → Json → Prop
  | property {members props : List (Str × Json)} {name : Str} {t : Json}
      (hprops : Assoc.find? (str "properties") members = some (.object props))
      (h : Assoc.find? name props = some t) : SubschemaOf t (.object members)
  | items {members : List (Str × Json)} {t : Json}
      (h : Assoc.find? (str "items") members = some t) : SubschemaOf t (.object members)

/-- No schema in `s`, at any depth, is of type object. -/
def NoObjectInside (s : Json) : Prop :=
  ∀ t, Relation.TransGen SubschemaOf t s → ¬ t.IsObjectSchema

end Forgeant
