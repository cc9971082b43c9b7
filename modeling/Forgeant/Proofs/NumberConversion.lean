import Forgeant.Json.Get
import Forgeant.Json.Path
import Forgeant.Json.Reference
import Forgeant.Proofs.JsonLeaves

namespace Forgeant.Proofs.NumberConversion
open JsonLeaves Double

/-- The double is an integer that `std::int64_t` has. -/
def InRange (d : Double) : Prop := ∃ m, IsInteger d m ∧ -2 ^ 63 ≤ m ∧ m ≤ 2 ^ 63 - 1

/-- No number of the tree is 2^63. -/
def BelowBeyond (g : Generic) : Prop :=
  ∀ path d, g.node? path = some (.number d) → d ≠ .finite beyond

theorem not_inRange_beyond : ¬ InRange (.finite beyond) := by
  intro ⟨m, ⟨x, hx, hm⟩, _, hhi⟩
  cases hx
  have : ((2 ^ 63 : ℤ) : ℚ) = m := by
    rw [← hm]
    norm_num [beyond]
  have := Int.cast_injective this
  omega

section

variable [Platform]

/-- What the conversion of a number promises of the leaf that it makes. -/
structure Converts (d : Double) (leaf : Json) : Prop where
  integral : InRange d → ∃ n : Int64, leaf = .integer n ∧ IsInteger d n.toInt
  otherwise : ¬ InRange d → leaf = .number d
  /-- Where the leaf comes from a cast, the cast was in range. -/
  cast : leaf = .integer (castInt64 d) → InRange d
  get : leaf.getDouble = .ok d

/-- The promise for each number of a tree, at its position. -/
def ConvertsNumbers (g : Generic) (j : Json) : Prop :=
  ∀ path d, g.node? path = some (.number d) →
    ∃ leaf, j.node? path = some leaf ∧ Converts d leaf

theorem converts_integral {x : FiniteDouble} {m : ℤ} (hx : x.val = m) (hlo : -2 ^ 63 ≤ m)
    (hhi : m ≤ 2 ^ 63 - 1) : Converts (.finite x) (fromNumber (.finite x)) := by
  have hrange : InRange (.finite x) := ⟨m, ⟨x, rfl, hx⟩, hlo, hhi⟩
  have hval : (Int64.ofInt m).toInt = m := Int64.toInt_ofInt_of_le hlo (by omega)
  have hleaf : fromNumber (.finite x) = .integer (Int64.ofInt m) := by
    rw [fromNumber_integral hx hlo (by omega), castInt64_intCast hx hlo (by omega)]
  rw [hleaf]
  refine ⟨fun _ => ⟨_, rfl, x, rfl, by rw [hval, hx]⟩, fun h => absurd hrange h, fun _ => hrange, ?_⟩
  have hnearest := Double.nearest_representable x.representable
  simp only [Json.getDouble, castDouble, hval, ← hx]
  rw [hnearest]

theorem converts_number {d : Double} (h : fromNumber d = .number d) (hout : ¬ InRange d) :
    Converts d (fromNumber d) := by
  rw [h]
  exact ⟨fun hin => absurd hin hout, fun _ => rfl, by simp, rfl⟩

theorem fromNumber_out {d : Double} (hd : d ≠ .finite beyond) (hout : ¬ InRange d) :
    fromNumber d = .number d := by
  rcases fromNumber_cases d with ⟨x, m, rfl, hx, hlo, hhi, _⟩ | h
  · rcases lt_or_eq_of_le hhi with hlt | rfl
    · exact absurd ⟨m, ⟨x, rfl, hx⟩, hlo, by omega⟩ hout
    · rw [eq_beyond hx] at hd
      exact absurd rfl hd
  · exact h

/-- The one double on which the conversion breaks its promise is the first
above the range: the upper limit, made a double, is that double. -/
theorem converts_iff (d : Double) : Converts d (fromNumber d) ↔ d ≠ .finite beyond := by
  constructor
  · intro h hd
    subst hd
    have hnumber := h.otherwise not_inRange_beyond
    rcases fromNumber_cases (.finite beyond) with ⟨_, _, _, _, _, _, hcast⟩ | hd
    · exact not_inRange_beyond (h.cast hcast)
    · have hval : beyond.val = ((2 ^ 63 : ℤ) : ℚ) := by norm_num [beyond]
      rw [fromNumber_integral hval (by norm_num) le_rfl] at hd
      cases hd
  · intro hd
    by_cases hin : InRange d
    · obtain ⟨m, ⟨x, rfl, hx⟩, hlo, hhi⟩ := hin
      exact converts_integral hx hlo hhi
    · exact converts_number (fromNumber_out hd hin) hin

theorem convertsNumbers_iff (g : Generic) : ConvertsNumbers g (fromGeneric g) ↔ BelowBeyond g := by
  have hnode : ∀ path d, g.node? path = some (.number d) →
      (fromGeneric g).node? path = some (fromNumber d) := by
    intro path d h
    rw [fromGeneric_node?, h]
    rfl
  constructor
  · intro h path d hd
    obtain ⟨leaf, hleaf, hconv⟩ := h path d hd
    cases (hnode path d hd).symm.trans hleaf
    exact (converts_iff d).mp hconv
  · intro h path d hd
    exact ⟨_, hnode path d hd, (converts_iff d).mpr (h path d hd)⟩

/-- A tree's numbers are converted as promised, also where a text is parsed,
exactly when none of them is 2^63. -/
theorem fromGeneric_converts (g : Generic) :
    (ConvertsNumbers g (fromGeneric g) ↔ BelowBeyond g) ∧
    ∀ text j, Platform.readJson text = .ok g → Json.parse text = .ok j →
      (ConvertsNumbers g j ↔ BelowBeyond g) := by
  refine ⟨convertsNumbers_iff g, ?_⟩
  intro text j hread hparse
  simp only [Json.parse, hread, Except.ok.injEq] at hparse
  rw [← hparse]
  exact convertsNumbers_iff g

end

/-- The number 9223372036854775808 is cast although no integer is it. -/
theorem not_convertsNumbers_beyond : ¬ ∀ (platform : Platform) (g : Generic),
    @ConvertsNumbers platform g (@fromGeneric platform g) := by
  intro h
  let platform := Platform.reference
  have hconv := h platform (.number (.finite beyond))
  exact (convertsNumbers_iff _).mp hconv [] _ rfl rfl

end Forgeant.Proofs.NumberConversion
