import Forgeant.Library.Fallible
import Forgeant.Library.Integral
import Forgeant.Json.Text

namespace Forgeant

/-- The targets made of `bool`, `std::string`, the integral types and vectors
of these. `integer` is `integer_t` itself, which is read without a cast. -/
inductive TargetType where
  | boolean
  | string
  | integer
  | integral (t : IntegralType)
  | vector (elem : TargetType)

def TargetType.Value : TargetType → Type
  | boolean => Bool
  | string => Str
  | integer => Int64
  | integral t => t.Value
  | vector elem => List elem.Value

namespace Json

def getBool : Json → Except StdException Bool
  | .boolean b => .ok b
  | _ => .error .badVariantAccess

theorem getBool_ok {j : Json} {b : Bool} : j.getBool = .ok b ↔ j = .boolean b := by
  cases j <;> simp [getBool]

/-- `get<integer_t>()`. -/
def getInteger : Json → Except StdException Int64
  | .integer n => .ok n
  | _ => .error .badVariantAccess

/-- `static_cast<U>(std::get<integer_t>(value_))`. -/
def getIntegral (t : IntegralType) : Json → Except StdException t.Value
  | .integer n => .ok ⟨t.cast n.toInt, t.cast_represents _⟩
  | _ => .error .badVariantAccess

def get : (target : TargetType) → Json → Except StdException target.Value
  | .boolean, j => j.getBool
  | .string, j => j.getString
  | .integer, j => j.getInteger
  | .integral t, j => j.getIntegral t
  | .vector elem, j => do (← j.elements).mapM (get elem)

/-- `get<double>()`. -/
def getDouble : Json → Except StdException Double
  | .integer n => .ok (castDouble n)
  | .number d => .ok d
  | _ => .error .badVariantAccess

theorem getInt_eq (j : Json) : j.getInt = (j.getIntegral .int).map Subtype.val := by
  cases j with
  | integer n => simp [getInt, getIntegral, Except.map, IntegralType.cast, IntegralType.int]
  | _ => rfl

end Json

namespace TargetType

/-- The value is built as the target is. -/
def Shape : TargetType → Json → Prop
  | boolean, j => ∃ b, j = .boolean b
  | string, j => ∃ s, j = .string s
  | integer, j => ∃ n, j = .integer n
  | integral _, j => ∃ n, j = .integer n
  | vector elem, j => ∃ elems, j = .array elems ∧ ∀ e ∈ elems, elem.Shape e

/-- Each integer leaf has a value in the type that it is read into. -/
def Represented : TargetType → Json → Prop
  | integral t, j => ∀ n, j = .integer n → t.Represents n.toInt
  | vector elem, j => ∀ elems, j = .array elems → ∀ e ∈ elems, elem.Represented e
  | _, _ => True

/-- What was read are the booleans, strings and integers of the value. -/
def Denotes : (target : TargetType) → target.Value → Json → Prop
  | boolean, b, j => j = .boolean b
  | string, s, j => j = .string s
  | integer, n, j => j = .integer n
  | integral _, v, j => ∃ n, j = .integer n ∧ n.toInt = v.val
  | vector elem, vs, j => ∃ elems, j = .array elems ∧ List.Forall₂ elem.Denotes vs elems

end TargetType

end Forgeant
