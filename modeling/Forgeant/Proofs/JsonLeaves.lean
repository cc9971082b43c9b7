import Forgeant.Json.Reading

namespace Forgeant.Proofs.JsonLeaves

def lowest : FiniteDouble :=
  ⟨-2 ^ 63, ⟨-1, 63, by norm_num, by norm_num, by norm_num, by norm_num⟩⟩

def beyond : FiniteDouble :=
  ⟨2 ^ 63, ⟨1, 63, by norm_num, by norm_num, by norm_num, by norm_num⟩⟩

theorem castDouble_minValue : castDouble Int64.minValue = .finite lowest := by decide +kernel

/-- The largest integer is no double; the one nearest to it is out of range. -/
theorem castDouble_maxValue : castDouble Int64.maxValue = .finite beyond := by decide +kernel

theorem truncate_intCast (m : ℤ) : truncate m = m := by
  unfold truncate
  split <;> simp

variable [Platform]

theorem castInt64_intCast {x : FiniteDouble} {m : ℤ} (hx : x.val = m) (hlo : -2 ^ 63 ≤ m)
    (hhi : m < 2 ^ 63) : castInt64 (.finite x) = Int64.ofInt m := by
  simp only [castInt64, hx, truncate_intCast]
  rw [if_pos]
  rw [Int64.toInt_minValue, Int64.toInt_maxValue]
  omega

theorem castInt64_beyond : castInt64 (.finite beyond) = Platform.castOutOfRange (.finite beyond) := by
  have hval : beyond.val = ((2 ^ 63 : ℤ) : ℚ) := by norm_num [beyond]
  simp only [castInt64, hval, truncate_intCast]
  rw [if_neg]
  rw [Int64.toInt_maxValue]
  omega

/-- The whole doubles between the bounds become integers, all others stay. -/
theorem fromNumber_cases (d : Double) :
    (∃ x m, d = .finite x ∧ x.val = (m : ℤ) ∧ -2 ^ 63 ≤ m ∧ m ≤ 2 ^ 63 ∧
      fromNumber d = .integer (castInt64 d)) ∨
    fromNumber d = .number d := by
  by_cases h : (Double.eq d d.floor && d.isFinite && Double.le (castDouble Int64.minValue) d &&
      Double.le d (castDouble Int64.maxValue)) = true
  · left
    have hd : fromNumber d = .integer (castInt64 d) := by
      unfold fromNumber
      rw [if_pos h]
    cases d with
    | infinity s => simp [Double.isFinite] at h
    | nan => simp [Double.isFinite] at h
    | finite x =>
      simp only [castDouble_minValue, castDouble_maxValue, Double.floor_finite, Bool.and_eq_true,
        Double.eq_finite, Double.le_finite] at h
      obtain ⟨⟨⟨heq, _⟩, hlo⟩, hhi⟩ := h
      refine ⟨x, ⌊x.val⌋, rfl, heq, ?_, ?_, hd⟩
      · rw [heq] at hlo
        simp only [lowest] at hlo
        exact_mod_cast hlo
      · rw [heq] at hhi
        simp only [beyond] at hhi
        exact_mod_cast hhi
  · right
    unfold fromNumber
    rw [if_neg h]

theorem fromNumber_integral {x : FiniteDouble} {m : ℤ} (hx : x.val = m) (hlo : -2 ^ 63 ≤ m)
    (hhi : m ≤ 2 ^ 63) : fromNumber (.finite x) = .integer (castInt64 (.finite x)) := by
  unfold fromNumber
  rw [if_pos]
  simp only [castDouble_minValue, castDouble_maxValue, Double.floor_finite, Bool.and_eq_true,
    Double.eq_finite, Double.le_finite, Double.isFinite_finite, and_true, hx, Int.floor_intCast,
    lowest, beyond, true_and]
  constructor
  · exact_mod_cast hlo
  · exact_mod_cast hhi

omit [Platform] in
theorem eq_beyond {x : FiniteDouble} (h : x.val = ((2 ^ 63 : ℤ) : ℚ)) : x = beyond := by
  apply FiniteDouble.ext
  rw [h]
  norm_num [beyond]

omit [Platform] in
theorem abs_toInt_le (n : Int64) : |n.toInt| ≤ 2 ^ 63 := by
  have := n.le_toInt
  have := n.toInt_lt
  rw [abs_le]
  omega

/-- The integers that come back from a double: the exact ones, and what the
platform makes of the double just beyond the range. -/
def Exact (n : Int64) : Prop :=
  Representable n.toInt ∨
    castDouble n = castDouble Int64.maxValue ∧ Platform.castOutOfRange (castDouble n) = n

theorem fromNumber_castDouble (n : Int64) : fromNumber (castDouble n) = .integer n ↔ Exact n := by
  obtain ⟨x, m, hd, hx, hm⟩ := Double.nearest_intCast (k := 63) (by norm_num) (abs_toInt_le n)
  obtain ⟨hlo, hhi⟩ := abs_le.mp hm
  have hcast : castDouble n = .finite x := hd
  unfold Exact
  rw [hcast, fromNumber_integral hx hlo hhi, castDouble_maxValue]
  simp only [Json.integer.injEq]
  rcases lt_or_eq_of_le hhi with hlt | rfl
  · rw [castInt64_intCast hx hlo hlt]
    have hne : x ≠ beyond := by
      rintro rfl
      have : ((2 ^ 63 : ℤ) : ℚ) = (m : ℚ) := by rw [← hx]; norm_num [beyond]
      have := Int.cast_injective this
      omega
    constructor
    · intro h
      left
      have hn : n.toInt = m := by rw [← h, Int64.toInt_ofInt_of_le hlo hlt]
      rw [hn, ← hx]
      exact x.representable
    · intro h
      rcases h with h | ⟨h, _⟩
      · rw [Double.nearest_representable h] at hd
        cases hd
        have : n.toInt = m := Int.cast_injective hx
        rw [← this, Int64.ofInt_toInt]
      · exact absurd (Double.finite.inj h) hne
  · rw [eq_beyond hx, castInt64_beyond]
    constructor
    · intro h
      exact .inr ⟨rfl, h⟩
    · intro h
      rcases h with h | ⟨_, h⟩
      · exfalso
        rw [Double.nearest_representable h] at hd
        cases hd
        have : n.toInt = 2 ^ 63 := Int.cast_injective hx
        have := n.toInt_lt
        omega
      · exact h

/-- An integer that was read from a double is exact. -/
theorem exact_of_fromNumber (cast : SaturatesCasts) {d : Double} {n : Int64}
    (h : fromNumber d = .integer n) : Exact n := by
  rcases fromNumber_cases d with ⟨x, m, rfl, hx, hlo, hhi, hd⟩ | hd
  · have hn : castInt64 (.finite x) = n := Json.integer.inj (hd.symm.trans h)
    rcases lt_or_eq_of_le hhi with hlt | rfl
    · rw [castInt64_intCast hx hlo hlt] at hn
      left
      rw [← hn, Int64.toInt_ofInt_of_le hlo hlt, ← hx]
      exact x.representable
    · obtain rfl := eq_beyond hx
      rw [castInt64_beyond] at hn
      rcases cast (.finite beyond) with hmin | hmax
      · left
        rw [← hn, hmin]
        have := lowest.representable
        rw [Int64.toInt_minValue]
        exact_mod_cast this
      · right
        rw [← hn, hmax, castDouble_maxValue]
        exact ⟨rfl, hmax⟩
  · exact absurd (hd.symm.trans h) (by simp)

/-- A double that was read as a double is read as one again. -/
theorem fromNumber_number {d d' : Double} (h : fromNumber d = .number d') :
    fromNumber d' = .number d' := by
  rcases fromNumber_cases d with ⟨_, _, _, _, _, _, hd⟩ | hd
  · exact absurd (hd.symm.trans h) (by simp)
  · cases hd.symm.trans h
    exact hd

end Forgeant.Proofs.JsonLeaves
