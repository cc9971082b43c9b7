import Mathlib.Algebra.Order.Ring.Int
import Mathlib.Tactic.Positivity

/-- An integral type of two's complement machines, by signedness and width. -/
structure IntegralType where
  signed : Bool
  bits : Nat
  positive : 0 < bits := by decide

namespace IntegralType

def lowest (t : IntegralType) : Int := if t.signed then -2 ^ (t.bits - 1) else 0

def highest (t : IntegralType) : Int := if t.signed then 2 ^ (t.bits - 1) - 1 else 2 ^ t.bits - 1

/-- The type has a value that is the integer `n`. -/
def Represents (t : IntegralType) (n : Int) : Prop := t.lowest ≤ n ∧ n ≤ t.highest

instance (t : IntegralType) (n : Int) : Decidable (t.Represents n) :=
  inferInstanceAs (Decidable (_ ∧ _))

/-- A value of the type, by the integer it stands for. -/
abbrev Value (t : IntegralType) := { n : Int // t.Represents n }

/-- `int`, with 32 bits. -/
def int : IntegralType := { signed := true, bits := 32 }

/-- Conversion to the type: the value congruent to `n` modulo `2 ^ bits`. -/
def cast (t : IntegralType) (n : Int) : Int :=
  if t.signed then n.bmod (2 ^ t.bits) else n % 2 ^ t.bits

theorem modulus_eq (t : IntegralType) : 2 ^ t.bits = 2 * 2 ^ (t.bits - 1) := by
  rw [← pow_succ', Nat.sub_add_cancel t.positive]

theorem cast_represents (t : IntegralType) (n : Int) : t.Represents (t.cast n) := by
  have hpos : 0 < 2 ^ t.bits := Nat.two_pow_pos _
  have hmod := t.modulus_eq
  unfold Represents lowest highest cast
  cases t.signed with
  | true =>
    have hlo := Int.le_bmod (x := n) hpos
    have hhi := Int.bmod_lt (x := n) hpos
    simp only [if_true]
    rw [hmod] at hlo hhi ⊢
    push_cast at hlo hhi ⊢
    omega
  | false =>
    have hlo := Int.emod_nonneg n (b := 2 ^ t.bits) (by positivity)
    have hhi := Int.emod_lt_of_pos n (b := 2 ^ t.bits) (by positivity)
    simp only [Bool.false_eq_true, if_false]
    omega

/-- A conversion keeps the value exactly when the type represents it. -/
theorem cast_eq_iff (t : IntegralType) (n : Int) : t.cast n = n ↔ t.Represents n := by
  constructor
  · intro h
    rw [← h]
    exact t.cast_represents n
  · intro ⟨hlo, hhi⟩
    have hmod := t.modulus_eq
    unfold lowest at hlo
    unfold highest at hhi
    unfold cast
    cases hs : t.signed with
    | true =>
      simp only [hs, if_true] at hlo hhi ⊢
      apply Int.bmod_eq_of_le
      · rw [hmod]
        push_cast
        omega
      · rw [hmod]
        push_cast
        omega
    | false =>
      simp only [hs, Bool.false_eq_true, if_false] at hlo hhi ⊢
      apply Int.emod_eq_of_lt hlo
      omega

end IntegralType
