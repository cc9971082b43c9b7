import Mathlib.Data.Int.Log
import Mathlib.Data.Rat.Floor
import Mathlib.Tactic.Linarith
import Mathlib.Tactic.NormNum
import Mathlib.Tactic.Positivity
import Mathlib.Tactic.FieldSimp
import Mathlib.Tactic.Ring

/-- The rationals that are finite IEEE 754 binary64 values. -/
def Representable (q : ℚ) : Prop :=
  ∃ m e : ℤ, |m| < 2 ^ 53 ∧ -1074 ≤ e ∧ e ≤ 971 ∧ q = m * (2 : ℚ) ^ e

/-- A finite double by the exact rational it denotes; the two zeros are one. -/
@[ext] structure FiniteDouble where
  val : ℚ
  representable : Representable val
  deriving DecidableEq

inductive Double where
  | finite (x : FiniteDouble)
  | infinity (negative : Bool)
  | nan
  deriving DecidableEq

namespace Representable

/-- A significand of 53 bits may also be the next power of two. -/
theorem of_le {m e : ℤ} (hm : |m| ≤ 2 ^ 53) (hlo : -1074 ≤ e) (hhi : e < 971) :
    Representable (m * (2 : ℚ) ^ e) := by
  rcases lt_or_eq_of_le hm with hlt | heq
  · exact ⟨m, e, hlt, hlo, by omega, rfl⟩
  · have htwo : (2 : ℚ) ^ (e + 1) = 2 ^ e * 2 := by rw [zpow_add₀ two_ne_zero, zpow_one]
    rcases (abs_eq (by norm_num)).mp heq with rfl | rfl
    · exact ⟨2 ^ 52, e + 1, by norm_num, by omega, by omega, by rw [htwo]; push_cast; ring⟩
    · exact ⟨-2 ^ 52, e + 1, by norm_num, by omega, by omega, by rw [htwo]; push_cast; ring⟩

theorem intCast {n : ℤ} (h : |n| ≤ 2 ^ 53) : Representable (n : ℚ) := by
  simpa using of_le (e := 0) h (by norm_num) (by norm_num)

theorem abs_lt {q : ℚ} (h : Representable q) : |q| < 2 ^ (1024 : ℤ) := by
  obtain ⟨m, e, hm, _, he, rfl⟩ := h
  have hm' : |(m : ℚ)| < 2 ^ (53 : ℤ) := by exact_mod_cast hm
  have hpos := zpow_pos (two_pos : (0 : ℚ) < 2) e
  calc |(m : ℚ) * 2 ^ e| = |(m : ℚ)| * 2 ^ e := by rw [abs_mul, abs_of_pos hpos]
    _ < 2 ^ (53 : ℤ) * 2 ^ e := by gcongr
    _ = 2 ^ (53 + e) := (zpow_add₀ two_ne_zero _ _).symm
    _ ≤ 2 ^ (1024 : ℤ) := zpow_le_zpow_right₀ (by norm_num) (by omega)

/-- Rounding a double down to an integer loses nothing. -/
theorem floor {q : ℚ} (h : Representable q) : Representable ((⌊q⌋ : ℤ) : ℚ) := by
  obtain ⟨m, e, hm, hlo, hhi, rfl⟩ := h
  rcases le_or_gt 0 e with he | he
  · obtain ⟨k, rfl⟩ := Int.eq_ofNat_of_zero_le he
    have hint : (m : ℚ) * 2 ^ (k : ℤ) = ((m * 2 ^ k : ℤ) : ℚ) := by push_cast; simp
    rw [hint, Int.floor_intCast, ← hint]
    exact ⟨m, k, hm, hlo, hhi, rfl⟩
  · apply intCast
    have hm' : |(m : ℚ)| < 2 ^ 53 := by exact_mod_cast hm
    have hsmall : (2 : ℚ) ^ e ≤ 1 := zpow_le_one_of_nonpos₀ (by norm_num) he.le
    have habs : |(m : ℚ) * 2 ^ e| ≤ 2 ^ 53 := by
      rw [abs_mul, abs_of_pos (zpow_pos (two_pos : (0 : ℚ) < 2) e)]
      calc |(m : ℚ)| * 2 ^ e ≤ |(m : ℚ)| * 1 := by gcongr
        _ ≤ 2 ^ 53 := by linarith
    obtain ⟨h1, h2⟩ := abs_le.mp habs
    rw [abs_le]
    refine ⟨Int.le_floor.mpr (by push_cast; linarith), ?_⟩
    have := Int.floor_le ((m : ℚ) * 2 ^ e)
    exact_mod_cast this.trans h2

end Representable

namespace Double

/-- To the nearest integer, a tie to the even one. -/
def roundEven (q : ℚ) : ℤ :=
  let f := ⌊q⌋
  if q - f < 1 / 2 then f else if 1 / 2 < q - f then f + 1 else f + f % 2

/-- The exponent of the last place of the doubles around `q`. -/
def lastPlace (q : ℚ) : ℤ := max (-1074) (Int.log 2 |q| - 52)

theorem roundEven_intCast (n : ℤ) : roundEven n = n := by simp [roundEven]

theorem roundEven_bounds (q : ℚ) : ⌊q⌋ ≤ roundEven q ∧ roundEven q ≤ ⌊q⌋ + 1 := by
  unfold roundEven
  dsimp only
  split_ifs <;> omega

theorem abs_roundEven_le {q : ℚ} {n : ℤ} (h : |q| ≤ n) : |roundEven q| ≤ n := by
  obtain ⟨hlo, hhi⟩ := abs_le.mp h
  obtain ⟨h1, h2⟩ := roundEven_bounds q
  rw [abs_le]
  have hfl : -n ≤ ⌊q⌋ := Int.le_floor.mpr (by push_cast; exact hlo)
  refine ⟨by omega, ?_⟩
  rcases lt_or_eq_of_le hhi with hlt | rfl
  · have : ⌊q⌋ < n := Int.floor_lt.mpr hlt
    omega
  · rw [roundEven_intCast]

theorem le_abs_roundEven {q : ℚ} {n : ℤ} (h : n ≤ |q|) : n ≤ |roundEven q| := by
  obtain ⟨h1, h2⟩ := roundEven_bounds q
  rcases le_or_gt 0 q with hq | hq
  · rw [abs_of_nonneg hq] at h
    have : n ≤ ⌊q⌋ := Int.le_floor.mpr h
    exact (this.trans h1).trans (le_abs_self _)
  · rw [abs_of_neg hq] at h
    have hneg : |roundEven q| = -roundEven q := by
      apply abs_of_nonpos
      have : ⌊q⌋ < 0 := Int.floor_lt.mpr (by exact_mod_cast hq)
      omega
    rw [hneg]
    rcases eq_or_ne ((-n : ℤ) : ℚ) q with heq | hne
    · rw [← heq, roundEven_intCast, neg_neg]
    · have hlt : q < ((-n : ℤ) : ℚ) := lt_of_le_of_ne (by push_cast; linarith) hne.symm
      have : ⌊q⌋ < -n := Int.floor_lt.mpr hlt
      omega

/-- The significand that rounding gives never exceeds 53 bits by more than the
carry into the next power of two. -/
theorem abs_significand_le (q : ℚ) : |roundEven (q / 2 ^ lastPlace q)| ≤ 2 ^ 53 := by
  apply abs_roundEven_le
  have hpos := zpow_pos (two_pos : (0 : ℚ) < 2) (lastPlace q)
  rw [abs_div, abs_of_pos hpos, div_le_iff₀ hpos]
  have hlog := (Int.lt_zpow_succ_log_self (b := 2) (by norm_num) |q|).le
  calc |q| ≤ 2 ^ (Int.log 2 |q| + 1) := by exact_mod_cast hlog
    _ ≤ 2 ^ (53 + lastPlace q) := zpow_le_zpow_right₀ (by norm_num) (by unfold lastPlace; omega)
    _ = ((2 ^ 53 : ℤ) : ℚ) * 2 ^ lastPlace q := by
      rw [zpow_add₀ two_ne_zero]; norm_num

/-- Far above the subnormal range the significand has all its 53 bits. -/
theorem le_abs_significand {q : ℚ} (h : 0 < lastPlace q) :
    2 ^ 52 ≤ |roundEven (q / 2 ^ lastPlace q)| := by
  have hpos := zpow_pos (two_pos : (0 : ℚ) < 2) (lastPlace q)
  have hq : 0 < |q| := by
    rcases eq_or_ne q 0 with rfl | hq
    · simp [lastPlace, Int.log_zero_right] at h
    · exact abs_pos.mpr hq
  have hlog : lastPlace q = Int.log 2 |q| - 52 := by unfold lastPlace at h ⊢; omega
  apply le_abs_roundEven
  rw [abs_div, abs_of_pos hpos, le_div_iff₀ hpos]
  calc (((2 ^ 52 : ℤ) : ℚ)) * 2 ^ lastPlace q = 2 ^ (Int.log 2 |q|) := by
        rw [show Int.log 2 |q| = 52 + lastPlace q by omega, zpow_add₀ two_ne_zero]; norm_num
    _ ≤ |q| := by exact_mod_cast Int.zpow_log_le_self (b := 2) (by norm_num) hq

theorem overflow_of_le {m e : ℤ} {k : ℕ} (hm : 2 ^ k ≤ |m|) (he : 1024 ≤ k + e) :
    2 ^ (1024 : ℤ) ≤ |(m : ℚ) * 2 ^ e| := by
  have hpos := zpow_pos (two_pos : (0 : ℚ) < 2) e
  have hm' : (2 : ℚ) ^ (k : ℤ) ≤ |(m : ℚ)| := by exact_mod_cast hm
  calc (2 : ℚ) ^ (1024 : ℤ) ≤ 2 ^ (k + e) := zpow_le_zpow_right₀ (by norm_num) he
    _ = 2 ^ (k : ℤ) * 2 ^ e := zpow_add₀ two_ne_zero _ _
    _ ≤ |(m : ℚ)| * 2 ^ e := by gcongr
    _ = |(m : ℚ) * 2 ^ e| := by rw [abs_mul, abs_of_pos hpos]

/-- A rounded value below the overflow threshold is a double. -/
theorem representable_rounded {q : ℚ}
    (h : ¬ 2 ^ (1024 : ℤ) ≤ |(roundEven (q / 2 ^ lastPlace q) : ℚ) * 2 ^ lastPlace q|) :
    Representable (roundEven (q / 2 ^ lastPlace q) * (2 : ℚ) ^ lastPlace q) := by
  have hlo : -1074 ≤ lastPlace q := le_max_left _ _
  rcases lt_or_ge (lastPlace q) 971 with hlt | hge
  · exact .of_le (abs_significand_le q) hlo hlt
  · have hbig := le_abs_significand (q := q) (by omega)
    rcases lt_or_ge |roundEven (q / 2 ^ lastPlace q)| (2 ^ 53) with hm | hm
    · rcases eq_or_lt_of_le hge with heq | hgt
      · exact ⟨_, _, hm, hlo, heq.ge, rfl⟩
      · exact absurd (overflow_of_le (k := 52) hbig (by push_cast; omega)) h
    · exact absurd (overflow_of_le (k := 53) hm (by push_cast; omega)) h

/-- The double nearest to `q`, ties to even, with overflow to infinity. -/
def nearest (q : ℚ) : Double :=
  if h : 2 ^ (1024 : ℤ) ≤ |(roundEven (q / 2 ^ lastPlace q) : ℚ) * 2 ^ lastPlace q| then
    .infinity (q < 0)
  else
    .finite ⟨roundEven (q / 2 ^ lastPlace q) * 2 ^ lastPlace q, representable_rounded h⟩

theorem lastPlace_le {m e : ℤ} (hm : |m| < 2 ^ 53) (he : -1074 ≤ e) (hne : m ≠ 0) :
    lastPlace ((m : ℚ) * 2 ^ e) ≤ e := by
  have hpos := zpow_pos (two_pos : (0 : ℚ) < 2) e
  have hm' : |(m : ℚ)| < 2 ^ (53 : ℤ) := by exact_mod_cast hm
  have hq : 0 < |(m : ℚ) * 2 ^ e| := abs_pos.mpr (mul_ne_zero (by exact_mod_cast hne) hpos.ne')
  have hlt : |(m : ℚ) * 2 ^ e| < ((2 : ℕ) : ℚ) ^ (53 + e) := by
    rw [abs_mul, abs_of_pos hpos]
    calc |(m : ℚ)| * 2 ^ e < 2 ^ (53 : ℤ) * 2 ^ e := by gcongr
      _ = ((2 : ℕ) : ℚ) ^ (53 + e) := by rw [Nat.cast_ofNat, zpow_add₀ two_ne_zero]
  have := (Int.lt_zpow_iff_log_lt (by norm_num) hq).mp hlt
  unfold lastPlace
  omega

/-- A double is its own nearest double. -/
theorem nearest_representable {q : ℚ} (h : Representable q) : nearest q = .finite ⟨q, h⟩ := by
  have hint : ∃ k : ℤ, q / 2 ^ lastPlace q = k := by
    obtain ⟨m, e, hm, hlo, hhi, rfl⟩ := h
    rcases eq_or_ne m 0 with rfl | hne
    · exact ⟨0, by simp⟩
    · obtain ⟨d, hd⟩ := Int.eq_ofNat_of_zero_le (sub_nonneg.mpr (lastPlace_le hm hlo hne))
      refine ⟨m * 2 ^ d, ?_⟩
      have hpos := zpow_pos (two_pos : (0 : ℚ) < 2) (lastPlace ((m : ℚ) * 2 ^ e))
      rw [div_eq_iff hpos.ne']
      have : e = d + lastPlace ((m : ℚ) * 2 ^ e) := by omega
      conv_lhs => rw [this, zpow_add₀ two_ne_zero]
      push_cast
      rw [zpow_natCast]
      ring
  obtain ⟨k, hk⟩ := hint
  have hval : (roundEven (q / 2 ^ lastPlace q) : ℚ) * 2 ^ lastPlace q = q := by
    have hpos := zpow_pos (two_pos : (0 : ℚ) < 2) (lastPlace q)
    rw [hk, roundEven_intCast, ← hk, div_mul_cancel₀ _ hpos.ne']
  unfold nearest
  rw [dif_neg (by rw [hval]; exact not_le.mpr h.abs_lt)]
  simp only [hval]

theorem lastPlace_le_of_abs_le {q : ℚ} {k : ℕ} (h : |q| ≤ 2 ^ k) : lastPlace q ≤ k := by
  unfold lastPlace
  rcases eq_or_ne q 0 with rfl | hq
  · rw [abs_zero, Int.log_zero_right]
    omega
  · have hlog := Int.zpow_log_le_self (b := 2) (r := |q|) (by norm_num) (abs_pos.mpr hq)
    have hle : (2 : ℚ) ^ (Int.log 2 |q|) ≤ 2 ^ (k : ℤ) := by
      rw [zpow_natCast]
      exact hlog.trans h
    have := (zpow_le_zpow_iff_right₀ (by norm_num : (1 : ℚ) < 2)).mp hle
    omega

/-- Rounding does not carry a value past a power of two. -/
theorem abs_rounded_le {q : ℚ} {k : ℕ} (h : |q| ≤ 2 ^ k) :
    |(roundEven (q / 2 ^ lastPlace q) : ℚ) * 2 ^ lastPlace q| ≤ 2 ^ k := by
  have hpos := zpow_pos (two_pos : (0 : ℚ) < 2) (lastPlace q)
  obtain ⟨d, hd⟩ := Int.eq_ofNat_of_zero_le (sub_nonneg.mpr (lastPlace_le_of_abs_le h))
  have hpow : (2 : ℚ) ^ k = 2 ^ d * 2 ^ lastPlace q := by
    rw [← zpow_natCast, ← zpow_natCast, ← zpow_add₀ two_ne_zero]
    congr 1
    omega
  have hq : |q / 2 ^ lastPlace q| ≤ ((2 ^ d : ℤ) : ℚ) := by
    rw [abs_div, abs_of_pos hpos, div_le_iff₀ hpos]
    push_cast
    rwa [← hpow]
  have hround : (|(roundEven (q / 2 ^ lastPlace q) : ℚ)|) ≤ 2 ^ d := by
    exact_mod_cast abs_roundEven_le hq
  rw [abs_mul, abs_of_pos hpos, hpow]
  gcongr

/-- Rounding an integer gives an integer. -/
theorem rounded_intCast (n : ℤ) :
    ∃ m : ℤ, (roundEven (n / 2 ^ lastPlace n) : ℚ) * 2 ^ lastPlace n = m := by
  rcases le_or_gt 0 (lastPlace (n : ℚ)) with h | h
  · obtain ⟨k, hk⟩ := Int.eq_ofNat_of_zero_le h
    refine ⟨roundEven (n / 2 ^ lastPlace (n : ℚ)) * 2 ^ k, ?_⟩
    rw [hk]
    push_cast
    simp
  · obtain ⟨k, hk⟩ := Int.eq_ofNat_of_zero_le (show 0 ≤ -lastPlace (n : ℚ) by omega)
    have hneg : lastPlace (n : ℚ) = -(k : ℤ) := by omega
    have hpos := zpow_pos (two_pos : (0 : ℚ) < 2) (lastPlace (n : ℚ))
    have hint : (n : ℚ) / 2 ^ lastPlace (n : ℚ) = ((n * 2 ^ k : ℤ) : ℚ) := by
      rw [hneg]
      push_cast
      simp
    refine ⟨n, ?_⟩
    rw [hint, roundEven_intCast, ← hint, div_mul_cancel₀ _ hpos.ne']

/-- The double nearest to an integer of moderate size is an integer of no
larger a power of two. -/
theorem nearest_intCast {n : ℤ} {k : ℕ} (hk : k < 1024) (h : |n| ≤ 2 ^ k) :
    ∃ (x : FiniteDouble) (m : ℤ), nearest n = .finite x ∧ x.val = m ∧ |m| ≤ 2 ^ k := by
  have hq : |(n : ℚ)| ≤ 2 ^ k := by exact_mod_cast h
  have hle := abs_rounded_le hq
  have hfin : ¬ 2 ^ (1024 : ℤ) ≤ |(roundEven (n / 2 ^ lastPlace n) : ℚ) * 2 ^ lastPlace n| := by
    refine not_le.mpr (hle.trans_lt ?_)
    rw [← zpow_natCast]
    exact zpow_lt_zpow_right₀ (by norm_num) (by exact_mod_cast hk)
  obtain ⟨m, hm⟩ := rounded_intCast n
  refine ⟨⟨_, representable_rounded hfin⟩, m, ?_, hm, ?_⟩
  · unfold nearest
    rw [dif_neg hfin]
  · rw [hm] at hle
    exact_mod_cast hle

/-- The double is the integer `m`. -/
def IsInteger (d : Double) (m : ℤ) : Prop := ∃ x, d = .finite x ∧ x.val = m

def isFinite : Double → Bool
  | .finite _ => true
  | _ => false

def floor : Double → Double
  | .finite x => .finite ⟨(⌊x.val⌋ : ℤ), x.representable.floor⟩
  | d => d

/-- IEEE `==`: a NaN equals nothing. -/
def eq : Double → Double → Bool
  | .finite x, .finite y => x.val == y.val
  | .infinity s, .infinity t => s == t
  | _, _ => false

/-- IEEE `<=`: a NaN is not comparable. -/
def le : Double → Double → Bool
  | .finite x, .finite y => x.val ≤ y.val
  | .infinity s, .infinity t => s || !t
  | .infinity s, .finite _ => s
  | .finite _, .infinity t => !t
  | _, _ => false

@[simp] theorem isFinite_finite (x : FiniteDouble) : isFinite (.finite x) = true := rfl

@[simp] theorem eq_finite (x y : FiniteDouble) :
    eq (.finite x) (.finite y) = true ↔ x.val = y.val := by simp [eq]

@[simp] theorem le_finite (x y : FiniteDouble) :
    le (.finite x) (.finite y) = true ↔ x.val ≤ y.val := by simp [le]

@[simp] theorem floor_finite (x : FiniteDouble) :
    floor (.finite x) = .finite ⟨(⌊x.val⌋ : ℤ), x.representable.floor⟩ := rfl

end Double
