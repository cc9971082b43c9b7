import Forgeant.Library.Str
import Forgeant.Library.Assoc
import Forgeant.Library.Double

namespace Forgeant

/-- `forgeant::Json`: a variant of the alternatives `null_t`, `boolean_t`,
`integer_t`, `number_t`, `string_t`, `array_t` and `object_t`. An `object_t` is
a `std::map`, here its entries in key order. -/
inductive Json where
  | null
  | boolean (b : Bool)
  | integer (n : Int64)
  | number (d : Double)
  | string (s : Str)
  | array (elems : List Json)
  | object (members : List (Str × Json))

instance : Inhabited Json := ⟨.null⟩

/-- The exceptions derived from `std::exception` that the code can see. The
texts of the last two alternatives of the library's own are the platform's;
`other` stands for whatever a handler, a client or a decoder throws. -/
inductive StdException where
  | runtimeError (message : Str)
  | invalidArgument (message : Str)
  | outOfRange (message : Str)
  | mapAt
  | badVariantAccess
  | other (message : Str)
  deriving DecidableEq

/-- `glz::generic`, the tree glaze reads a text into. Its only number
alternative is a double. -/
inductive Generic where
  | null
  | boolean (b : Bool)
  | number (d : Double)
  | string (s : Str)
  | array (elems : List Generic)
  | object (members : List (Str × Generic))

/-- What the code takes from outside the repository. -/
class Platform where
  /-- `glz::read_json<glz::generic>`, an error as `glz::format_error` words it. -/
  readJson : Str → Except Str Generic
  /-- `std::to_chars(first, last, d, std::chars_format::general)`. -/
  toChars : Double → Str
  /-- What `static_cast<std::int64_t>` gives for a double outside the range. -/
  castOutOfRange : Double → Int64
  /-- `std::bad_variant_access::what()`. -/
  badVariantAccess : Str
  /-- `what()` of the exception that `std::map::at` throws. -/
  mapAt : Str

/-- `e.what()`, a C string: a text with a NUL byte in it ends there. -/
def StdException.what [Platform] : StdException → Str
  | .runtimeError m | .invalidArgument m | .outOfRange m | .other m => m.cstr
  | .mapAt => Str.cstr Platform.mapAt
  | .badVariantAccess => Str.cstr Platform.badVariantAccess

namespace Json

/-- Every object in the tree lists its keys in strictly ascending order, as
each `std::map` does. -/
def Ordered : Json → Prop
  | .array elems => orderedElems elems
  | .object members => Assoc.Ordered members ∧ orderedMembers members
  | _ => True
where
  orderedElems : List Json → Prop
    | [] => True
    | e :: es => e.Ordered ∧ orderedElems es
  orderedMembers : List (Str × Json) → Prop
    | [] => True
    | (_, v) :: ms => v.Ordered ∧ orderedMembers ms

/-- `Json::object({{k, v}, ...})`. -/
def objectOf (entries : List (Str × Json)) : Json := .object (Assoc.ofList entries)

/-- `j[key]` on a const `Json`. -/
def index (j : Json) (key : Str) : Except StdException Json :=
  match j with
  | .object members =>
    match Assoc.find? key members with
    | some v => .ok v
    | none => .error .mapAt
  | _ => .error .badVariantAccess

/-- `j[key] = v`: a null becomes an object first. -/
def assign (j : Json) (key : Str) (v : Json) : Except StdException Json :=
  match j with
  | .null => .ok (.object (Assoc.set key v []))
  | .object members => .ok (.object (Assoc.set key v members))
  | _ => .error .badVariantAccess

/-- `j[i]` on a const `Json`. `std::vector::operator[]` checks no bound, so
the caller owes the proof that an array is long enough. -/
def indexAt (j : Json) (i : Nat) (h : ∀ elems, j = .array elems → i < elems.length) :
    Except StdException Json :=
  match j, h with
  | .array elems, h => .ok (elems.get ⟨i, h elems rfl⟩)
  | _, _ => .error .badVariantAccess

def contains (j : Json) (key : Str) : Bool :=
  match j with
  | .object members => (Assoc.find? key members).isSome
  | _ => false

def empty : Json → Bool
  | .array elems => elems.isEmpty
  | .object members => members.isEmpty
  | .null => true
  | _ => false

/-- What `empty` rules out before the first element is taken. -/
theorem length_pos_of_not_empty {j : Json} (h : ¬ j.empty) (elems : List Json)
    (hj : j = .array elems) : 0 < elems.length := by
  subst hj
  cases elems with
  | nil => exact absurd rfl h
  | cons e es => exact Nat.succ_pos _

/-- The elements a range-for over `j` visits. -/
def elements : Json → Except StdException (List Json)
  | .array elems => .ok elems
  | _ => .error .badVariantAccess

def getString : Json → Except StdException Str
  | .string s => .ok s
  | _ => .error .badVariantAccess

theorem index_ok {j v : Json} {key : Str} :
    j.index key = .ok v ↔ ∃ members, j = .object members ∧ Assoc.find? key members = some v := by
  cases j with
  | object members =>
    simp only [index, object.injEq, exists_eq_left']
    cases Assoc.find? key members <;> simp
  | _ => simp [index]

theorem contains_of_index {j v : Json} {key : Str} (h : j.index key = .ok v) :
    j.contains key = true := by
  obtain ⟨members, rfl, hfind⟩ := index_ok.mp h
  simp only [contains, hfind, Option.isSome_some]

theorem contains_object_false {members : List (Str × Json)} {key : Str} :
    (object members).contains key = false ↔ Assoc.find? key members = none := by
  simp only [contains, Option.isSome_eq_false_iff, Option.isNone_iff_eq_none]

theorem index_of_contains {j : Json} {key : Str} (h : j.contains key = true) :
    ∃ v, j.index key = .ok v := by
  cases j with
  | object members =>
    obtain ⟨v, hv⟩ := Option.isSome_iff_exists.mp h
    exact ⟨v, index_ok.mpr ⟨members, rfl, hv⟩⟩
  | _ => cases h

theorem elements_ok {j : Json} {elems : List Json} : j.elements = .ok elems ↔ j = .array elems := by
  cases j <;> simp [elements]

theorem getString_ok {j : Json} {s : Str} : j.getString = .ok s ↔ j = .string s := by
  cases j <;> simp [getString]

/-- `get<int>()`: the 64-bit integer cast to a 32-bit one. -/
def getInt : Json → Except StdException Int
  | .integer n => .ok n.toInt32.toInt
  | _ => .error .badVariantAccess

/-- `j.value<T>(key, defaultValue)`, where `get` is `get<T>()`. -/
def value {α : Type} (get : Json → Except StdException α) (j : Json) (key : Str)
    (defaultValue : α) : Except StdException α :=
  match j with
  | .object members =>
    match Assoc.find? key members with
    | some v => get v
    | none => .ok defaultValue
  | _ => .ok defaultValue

theorem value_of_index {α : Type} {j v : Json} {key : Str} (h : j.index key = .ok v)
    (get : Json → Except StdException α) (d : α) : j.value get key d = get v := by
  obtain ⟨members, rfl, hfind⟩ := index_ok.mp h
  simp only [value, hfind]

theorem value_of_missing {α : Type} {j : Json} {key : Str} (h : j.contains key = false)
    (get : Json → Except StdException α) (d : α) : j.value get key d = .ok d := by
  cases j with
  | object members =>
    simp only [value, contains_object_false.mp h]
  | _ => rfl

/-- A string other than the default was there. -/
theorem value_getString_iff {j : Json} {key s : Str} (h : s ≠ []) :
    j.value getString key [] = .ok s ↔ j.index key = .ok (.string s) := by
  cases j with
  | object members =>
    simp only [value, index]
    cases Assoc.find? key members with
    | none => simp [h.symm]
    | some v => simp [getString_ok]
  | _ => simp [value, index, h.symm]

end Json

end Forgeant
