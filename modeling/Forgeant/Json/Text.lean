import Forgeant.Json.Value

namespace Forgeant

def hexDigit (n : UInt8) : UInt8 := if n < 10 then 0x30 + n else 0x61 + (n - 10)

/-- One byte of a string as `write_string` emits it. -/
def writeChar (c : UInt8) : Str :=
  if c = 0x22 then str "\\\""
  else if c = 0x5c then str "\\\\"
  else if c = 0x08 then str "\\b"
  else if c = 0x0c then str "\\f"
  else if c = 0x0a then str "\\n"
  else if c = 0x0d then str "\\r"
  else if c = 0x09 then str "\\t"
  else if c < 0x20 then str "\\u00" ++ [hexDigit (c / 16), hexDigit (c % 16)]
  else [c]

def writeString (s : Str) : Str := [0x22] ++ s.flatMap writeChar ++ [0x22]

variable [Platform]

/-- The text `write_to` appends for a value. `first` is the flag that holds
back the separator. -/
def Json.dump : Json → Str
  | .null => str "null"
  | .boolean b => if b then str "true" else str "false"
  | .integer n => Str.ofInt n.toInt
  | .number d => Platform.toChars d
  | .string s => writeString s
  | .array elems => str "[" ++ dumpElems true elems ++ str "]"
  | .object members => str "\x7b" ++ dumpMembers true members ++ str "\x7d"
where
  dumpElems (first : Bool) : List Json → Str
    | [] => []
    | e :: es => (if !first then str "," else []) ++ e.dump ++ dumpElems false es
  dumpMembers (first : Bool) : List (Str × Json) → Str
    | [] => []
    | (k, v) :: ms =>
      (if !first then str "," else []) ++ writeString k ++ str ":" ++ v.dump ++ dumpMembers false ms

def truncate (q : ℚ) : ℤ := if 0 ≤ q then ⌊q⌋ else ⌈q⌉

/-- `static_cast<Json::integer_t>(d)`. -/
def castInt64 (d : Double) : Int64 :=
  match d with
  | .finite x =>
    if Int64.minValue.toInt ≤ truncate x.val ∧ truncate x.val ≤ Int64.maxValue.toInt then
      Int64.ofInt (truncate x.val)
    else Platform.castOutOfRange d
  | _ => Platform.castOutOfRange d

/-- `static_cast<double>(n)`. -/
def castDouble (n : Int64) : Double := Double.nearest n.toInt

/-- The number case of `from_generic`. -/
def fromNumber (d : Double) : Json :=
  if Double.eq d d.floor && d.isFinite && Double.le (castDouble Int64.minValue) d &&
      Double.le d (castDouble Int64.maxValue) then
    .integer (castInt64 d)
  else .number d

def fromGeneric : Generic → Json
  | .null => .null
  | .boolean b => .boolean b
  | .number d => fromNumber d
  | .string s => .string s
  | .array elems => .array (fromElems elems)
  | .object members => .object (Assoc.ofList (fromMembers members))
where
  fromElems : List Generic → List Json
    | [] => []
    | e :: es => fromGeneric e :: fromElems es
  fromMembers : List (Str × Generic) → List (Str × Json)
    | [] => []
    | (k, v) :: ms => (k, fromGeneric v) :: fromMembers ms

def Json.parse (input : Str) : Except StdException Json :=
  match Platform.readJson input with
  | .ok result => .ok (fromGeneric result)
  | .error e => .error (.runtimeError (str "Json::parse: " ++ e))

end Forgeant
