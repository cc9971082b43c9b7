import Forgeant.Conversion
import Forgeant.Replay
import Forgeant.Schema

namespace Forgeant

namespace ParamSchema

def string : OutputType Str := ⟨Schema.string.build, Json.getString⟩
def int : OutputType Int := ⟨Schema.integer.build, Json.getInt⟩
def double [Platform] : OutputType Double := ⟨Schema.number.build, Json.getDouble⟩
def boolean : OutputType Bool := ⟨Schema.boolean.build, Json.getBool⟩

end ParamSchema

structure WeatherParams where
  city : Str
  unit : Str := str "fahrenheit"

def WeatherParams.fromJson (j : Json) : Except StdException WeatherParams := do
  let city ← j.stringAt (str "city")
  if j.contains (str "unit") then
    let unit ← j.stringAt (str "unit")
    return { city, unit }
  else return { city }

def ParamSchema.weatherParams : OutputType WeatherParams where
  schema := (((Schema.object.property (str "city")
      (Schema.string.description (str "The city name")).build).property (str "unit")
      (((Schema.string.description (str "Temperature unit")).enumValues
        [str "fahrenheit", str "celsius"]).defaultValue (.string (str "fahrenheit"))).build).required
      [str "city"]).build
  get := WeatherParams.fromJson

/-- `make_tool<Params>(name, description, func)`, where `toJson` makes a `Json` of
what `func` returns. -/
def makeTool {σ P R : Type} (params : OutputType P) (toJson : R → Json) (name description : Str)
    (func : P → σ → Except StdException R × σ) : Tool σ where
  name := name
  description := description
  parameters := params.schema
  execute args w :=
    match params.get args with
    | .error e => (.error e, w)
    | .ok p =>
      let (result, v) := func p w
      (result.map toJson, v)

section

variable {σ P R : Type} {params : OutputType P} {toJson : R → Json} {name description : Str}
  {func : P → σ → Except StdException R × σ} {args : Json}

theorem makeTool_ok {p : P} (h : params.get args = .ok p) (w : σ) :
    (makeTool params toJson name description func).execute args w =
      ((func p w).1.map toJson, (func p w).2) := by
  simp only [makeTool, h]

theorem makeTool_error {e : StdException} (h : params.get args = .error e) (w : σ) :
    (makeTool params toJson name description func).execute args w = (.error e, w) := by
  simp only [makeTool, h]

end

/-- The arguments of one call of `make_tool`. -/
structure TypedTool (σ : Type) where
  Params : Type
  Result : Type
  params : OutputType Params
  toJson : Result → Json
  name : Str
  description : Str
  func : Params → σ → Except StdException Result × σ

/-- The tool of the example. -/
def TypedTool.getWeather : TypedTool Unit where
  Params := WeatherParams
  Result := Str
  params := ParamSchema.weatherParams
  toJson := .string
  name := str "get_weather"
  description := str "Get the current weather for a city"
  func params w := (.ok (str "72°F and sunny in " ++ params.city), w)

def TypedTool.tool {σ : Type} (tool : TypedTool σ) : Tool σ :=
  makeTool tool.params tool.toJson tool.name tool.description tool.func

end Forgeant
