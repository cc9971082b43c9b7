import Forgeant.Json.Reading
import Forgeant.Library.JsonSound
import Mathlib.Data.Nat.Prime.Basic

/-- The last `k` decimal digits of `n`. -/
def Str.padded : Nat → Nat → Str
  | 0, _ => []
  | k + 1, n => padded k (n / 10) ++ [digit (n % 10)]

theorem Str.padded_length (k n : Nat) : (padded k n).length = k := by
  induction k generalizing n with
  | zero => rfl
  | succ k ih => simp [padded, ih]

theorem Str.padded_isDigit (k n : Nat) : ∀ b ∈ padded k n, isDigit b = true := by
  induction k generalizing n with
  | zero => simp [padded]
  | succ k ih =>
    intro b hb
    rcases List.mem_append.mp hb with hb | hb
    · exact ih _ b hb
    · obtain rfl := List.mem_singleton.mp hb
      exact isDigit_digit (Nat.mod_lt _ (by omega))

theorem Str.natValue_padded {k n : Nat} (h : n < 10 ^ k) : natValue (padded k n) = n := by
  induction k generalizing n with
  | zero =>
    have : n = 0 := by simpa using h
    simp [padded, natValue, this]
  | succ k ih =>
    have hk : n / 10 < 10 ^ k := by
      rw [Nat.div_lt_iff_lt_mul (by omega)]
      rwa [pow_succ] at h
    have := ih hk
    simp only [natValue] at this
    simp only [padded, natValue, List.reverse_append, List.reverse_singleton, List.singleton_append,
      List.map_cons, Nat.ofDigits_cons, this, digitValue_digit (Nat.mod_lt n (by omega : 0 < 10))]
    omega

namespace FiniteDouble

theorem exists_scale (x : FiniteDouble) : ∃ (k : ℕ) (z : ℤ), x.val * 2 ^ k = z := by
  obtain ⟨m, e, _, _, _, hx⟩ := x.representable
  refine ⟨e.natAbs, m * 2 ^ (e + e.natAbs).toNat, ?_⟩
  obtain ⟨k, hk⟩ := Int.eq_ofNat_of_zero_le (show 0 ≤ e + e.natAbs by omega)
  rw [hx, mul_assoc, ← zpow_natCast (2 : ℚ) e.natAbs, ← zpow_add₀ two_ne_zero, hk]
  simp

/-- A double is a fraction over a power of two. -/
theorem den_eq (x : FiniteDouble) : x.val.den = 2 ^ Nat.log 2 x.val.den := by
  obtain ⟨k, z, hz⟩ := x.exists_scale
  have hden : (x.val.den : ℚ) ≠ 0 := by exact_mod_cast x.val.den_nz
  have hmul : (x.val.num * 2 ^ k : ℤ) = z * x.val.den := by
    rw [← Rat.num_div_den x.val, div_mul_eq_mul_div, div_eq_iff hden] at hz
    exact_mod_cast hz
  have hdvd : x.val.den ∣ x.val.num.natAbs * 2 ^ k := by
    have := Int.natAbs_dvd_natAbs.mpr (Dvd.intro_left z hmul.symm)
    simpa [Int.natAbs_mul, Int.natAbs_pow] using this
  obtain ⟨j, _, hj⟩ := (Nat.dvd_prime_pow Nat.prime_two).mp
    (Nat.Coprime.dvd_of_dvd_mul_left x.val.reduced.symm hdvd)
  rw [hj, Nat.log_pow (by omega)]

/-- The exact decimal expansion of a double. -/
def decimal (x : FiniteDouble) : JsonNumber :=
  let places := Nat.log 2 x.val.den
  { negative := x.val < 0
    int := Str.ofNat (x.val.num.natAbs / x.val.den)
    frac :=
      if places = 0 then none
      else some (Str.padded places (x.val.num.natAbs % x.val.den * 5 ^ places))
    exp := none
    intDigits := ⟨Str.ofNat_ne_nil _, Str.ofNat_isDigit _⟩
    noLeadingZero := Str.ofNat_head _
    fracDigits := by
      intro f hf
      split at hf
      · simp at hf
      · rename_i hne
        obtain rfl := Option.mem_some_iff.mp hf
        refine ⟨?_, Str.padded_isDigit _ _⟩
        intro h
        have := congrArg List.length h
        simp [Str.padded_length] at this
        exact hne (by simpa [places] using this) }

theorem val_eq_sign (x : FiniteDouble) :
    x.val = (if x.val < 0 then -1 else 1) * ((x.val.num.natAbs : ℚ) / x.val.den) := by
  have hnum := Rat.num_div_den x.val
  by_cases h : x.val < 0
  · have habs : (x.val.num.natAbs : ℚ) = -x.val.num := by
      rw [Nat.cast_natAbs, abs_of_neg (Rat.num_neg.mpr h), Int.cast_neg]
    rw [if_pos h, habs, neg_div, hnum]
    ring
  · have habs : (x.val.num.natAbs : ℚ) = x.val.num := by
      rw [Nat.cast_natAbs, abs_of_nonneg (Rat.num_nonneg.mpr (not_lt.mp h))]
    rw [if_neg h, habs, hnum, one_mul]

theorem decimal_value (x : FiniteDouble) : x.decimal.value = x.val := by
  have hden := x.den_eq
  generalize hp : Nat.log 2 x.val.den = p at hden
  have hpos : (x.val.den : ℚ) ≠ 0 := by exact_mod_cast x.val.den_nz
  have hmod : x.val.num.natAbs % x.val.den < 2 ^ p := by
    rw [← hden]
    exact Nat.mod_lt _ x.val.den_pos
  have hdigits : x.val.num.natAbs % x.val.den * 5 ^ p < 10 ^ p := by
    rw [show (10 : ℕ) = 2 * 5 by norm_num, mul_pow]
    exact Nat.mul_lt_mul_of_pos_right hmod (by positivity)
  have hfrac : (x.decimal.frac.elim 0 fun f => (Str.natValue f : ℚ) / 10 ^ f.length) =
      (x.val.num.natAbs % x.val.den : ℕ) / x.val.den := by
    simp only [decimal, hp]
    by_cases h0 : p = 0
    · have : x.val.den = 1 := by simpa [h0] using hden
      simp [h0, this, Nat.mod_one]
    · rw [if_neg h0, Option.elim_some, Str.natValue_padded hdigits, Str.padded_length]
      rw [show (10 : ℚ) = 2 * 5 by norm_num, mul_pow]
      have hden' : (x.val.den : ℚ) = 2 ^ p := by exact_mod_cast hden
      rw [hden']
      push_cast
      field_simp
  have hsum : ((x.val.num.natAbs / x.val.den : ℕ) : ℚ) +
      (x.val.num.natAbs % x.val.den : ℕ) / x.val.den = x.val.num.natAbs / x.val.den := by
    have := Nat.div_add_mod x.val.num.natAbs x.val.den
    have hcast : (x.val.num.natAbs : ℚ) = x.val.den * (x.val.num.natAbs / x.val.den : ℕ) +
        (x.val.num.natAbs % x.val.den : ℕ) := by exact_mod_cast this.symm
    conv_rhs => rw [hcast]
    field_simp
  rw [JsonNumber.value, JsonNumber.valueOf, hfrac]
  conv_rhs => rw [val_eq_sign x, ← hsum]
  simp [decimal, Str.natValue_ofNat]

end FiniteDouble

namespace Forgeant

/-- A platform that keeps every promise. The texts of the library's exceptions are
those of libstdc++. -/
@[reducible] def Platform.reference : Platform where
  readJson text :=
    match JsonText.read text with
    | some t => .ok (.ofTree t)
    | none => .error (str "syntax_error")
  toChars d :=
    match d with
    | .finite x => x.decimal.text
    | .infinity s => if s then str "-inf" else str "inf"
    | .nan => str "nan"
  castOutOfRange _ := Int64.minValue
  badVariantAccess := str "std::get: wrong index for variant"
  mapAt := str "map::at"

namespace Platform

theorem reference_readsTexts (valid : Str → Prop) : @ReadsTexts reference valid := by
  intro text t ht _ _
  show (match JsonText.read text with | some t => _ | none => _) = _
  rw [JsonText.read_complete ht]

theorem reference_readJson_ok {text : Str} {g : Generic} (h : reference.readJson text = .ok g) :
    ∃ t, JsonText.read text = some t ∧ g = .ofTree t := by
  unfold readJson reference at h
  cases hread : JsonText.read text with
  | none => simp [hread] at h
  | some t =>
    simp only [hread, Except.ok.injEq] at h
    exact ⟨t, rfl, h.symm⟩

/-- Nothing but white space may follow the value. -/
theorem reference_readsLeadingValue (valid : Str → Prop) :
    @ReadsLeadingValue reference valid JsonText.Ws := by
  let platform := reference
  refine ⟨fun w hw => hw, ?_, ?_⟩
  · intro w s r t hw hv _ ho hs hr
    exact reference_readsTexts valid _ t ⟨w, s, r, hw, hv, hr, rfl⟩ ho hs
  · intro text g hg
    obtain ⟨t, hread, htree⟩ := reference_readJson_ok hg
    obtain ⟨w, s, w', hw, hv, hw', htext⟩ := JsonText.read_iff.mp hread
    exact ⟨w, s, w', t, hw, hv, hw', htext, fun _ => htree⟩

theorem reference_yieldsStrings : @YieldsStrings reference (fun _ => True) := by
  intro text g _
  exact g.stringsIn_true

theorem reference_printsDoubles : @PrintsDoubles reference := by
  intro x
  refine ⟨x.decimal, rfl, ?_⟩
  rw [FiniteDouble.decimal_value]
  exact Double.nearest_representable x.representable

theorem reference_saturatesCasts : @SaturatesCasts reference := fun _ => .inl rfl

/-- The reference, but for a reader that takes no string that is not UTF-8. -/
@[reducible] def utf8 : Platform :=
  { reference with
    readJson := fun text =>
      match JsonText.read text with
      | some t => if t.StringsIn Str.IsUtf8 then .ok (.ofTree t) else .error (str "syntax_error")
      | none => .error (str "syntax_error") }

theorem utf8_readsTexts : @ReadsTexts utf8 Str.IsUtf8 := by
  intro text t ht _ hs
  show (match JsonText.read text with | some t => _ | none => _) = _
  rw [JsonText.read_complete ht]
  exact if_pos hs

theorem utf8_yieldsStrings : @YieldsStrings utf8 Str.IsUtf8 := by
  intro text g hg
  unfold readJson utf8 at hg
  simp only at hg
  split at hg
  · split at hg
    · rename_i hs
      cases hg
      exact Generic.stringsIn_ofTree hs
    · cases hg
  · cases hg

theorem utf8_printsDoubles : @PrintsDoubles utf8 := reference_printsDoubles

theorem utf8_saturatesCasts : @SaturatesCasts utf8 := reference_saturatesCasts

end Platform

end Forgeant
