import Forgeant.Writing

namespace Forgeant
open Effect

/-- A call in a chain on a builder. -/
inductive SchemaCall where
  | description (desc : Str)
  | defaultValue (value : Json)
  | enumValues (values : List Str)
  | property (name : Str) (propSchema : Json)
  | required (fields : List Str)
  | items (itemSchema : Json)

def SchemaBuilder.apply (builder : SchemaBuilder) : SchemaCall → SchemaBuilder
  | .description desc => builder.description desc
  | .defaultValue value => builder.defaultValue value
  | .enumValues values => builder.enumValues values
  | .property name propSchema => builder.property name propSchema
  | .required fields => builder.required fields
  | .items itemSchema => builder.items itemSchema

def SchemaCall.write : SchemaCall → Effect Json Unit
  | .description desc => member (str "description") (put (.string desc))
  | .defaultValue value => member (str "default") (put value)
  | .enumValues values => do
    member (str "enum") (put (.array []))
    forM values (fun v => member (str "enum") (pushBack (.string v)))
  | .property name propSchema => do
    let declared ← contains (str "properties")
    ifTrue (!declared) (member (str "properties") (put (.object [])))
    member (str "properties") (member name (put propSchema))
  | .required fields => do
    member (str "required") (put (.array []))
    forM fields (fun f => member (str "required") (pushBack (.string f)))
  | .items itemSchema => member (str "items") (put itemSchema)

/-- The constructor and a chain of calls. -/
def SchemaBuilder.write (type : Str) (calls : List SchemaCall) : Effect Json Unit := do
  member (str "type") (put (.string type))
  forM calls SchemaCall.write

def SchemaCall.entry? : SchemaCall → Option (Str × Json)
  | .description desc => some (str "description", .string desc)
  | .defaultValue value => some (str "default", value)
  | .enumValues values => some (str "enum", .array (values.map .string))
  | .property _ _ => none
  | .required fields => some (str "required", .array (fields.map .string))
  | .items itemSchema => some (str "items", itemSchema)

def SchemaCall.property? : SchemaCall → Option (Str × Json)
  | .property name propSchema => some (name, propSchema)
  | _ => none

namespace SchemaBuilder

/-- Of several calls for one entry the last says what it is. -/
def lastEntry (calls : List SchemaCall) (key : Str) : Option Json :=
  Assoc.find? key (calls.filterMap SchemaCall.entry?).reverse

def lastProperty (calls : List SchemaCall) (name : Str) : Option Json :=
  Assoc.find? name (calls.filterMap SchemaCall.property?).reverse

def properties? (calls : List SchemaCall) : Option Json :=
  match calls.filterMap SchemaCall.property? with
  | [] => none
  | props => some (.objectOf props.reverse)

def fields (type : Str) (calls : List SchemaCall) : List (Str × Json) :=
  Assoc.setSome (str "properties") (properties? calls)
    (Assoc.ofList ((calls.filterMap SchemaCall.entry?).reverse ++ [(str "type", .string type)]))

end SchemaBuilder

end Forgeant
