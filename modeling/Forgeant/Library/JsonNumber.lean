import Forgeant.Library.Str
import Mathlib.Data.Rat.Defs
import Mathlib.Algebra.Field.Rat
import Mathlib.Tactic.NormNum
import Mathlib.Tactic.FieldSimp

namespace JsonNumber

def Digits (s : Str) : Prop := s ≠ [] ∧ ∀ b ∈ s, Str.isDigit b = true

structure Exponent where
  /-- `E` rather than `e`. -/
  upper : Bool
  /-- `some true` is a minus, `some false` a plus. -/
  sign : Option Bool
  digits : Str
  ok : Digits digits

end JsonNumber

open JsonNumber

structure JsonNumber where
  negative : Bool
  int : Str
  frac : Option Str
  exp : Option Exponent
  intDigits : Digits int
  noLeadingZero : int.head? = some 0x30 → int = [0x30]
  fracDigits : ∀ f ∈ frac, Digits f

namespace JsonNumber

def signText : Option Bool → Str
  | some true => [0x2d]
  | some false => [0x2b]
  | none => []

def Exponent.text (e : Exponent) : Str :=
  (if e.upper then 0x45 else 0x65) :: (signText e.sign ++ e.digits)

def Exponent.value (e : Exponent) : ℤ :=
  if e.sign = some true then -Str.natValue e.digits else Str.natValue e.digits

def fracText : Option Str → Str
  | some f => 0x2e :: f
  | none => []

def expText : Option Exponent → Str
  | some e => e.text
  | none => []

def text (n : JsonNumber) : Str :=
  (if n.negative then [0x2d] else []) ++ n.int ++ fracText n.frac ++ expText n.exp

/-- The number that the parts of a text denote. -/
def valueOf (negative : Bool) (int : Str) (frac : Option Str) (exp : ℤ) : ℚ :=
  (if negative then -1 else 1) *
    (Str.natValue int + (frac.elim 0 fun f => (Str.natValue f : ℚ) / 10 ^ f.length)) * 10 ^ exp

def value (n : JsonNumber) : ℚ :=
  valueOf n.negative n.int n.frac (n.exp.elim 0 Exponent.value)

/-- The decimal text of an integer is a number. -/
def ofInt (z : ℤ) : JsonNumber where
  negative := z < 0
  int := Str.ofNat z.natAbs
  frac := none
  exp := none
  intDigits := ⟨Str.ofNat_ne_nil _, Str.ofNat_isDigit _⟩
  noLeadingZero := Str.ofNat_head _
  fracDigits := by simp

theorem ofInt_text (z : ℤ) : (ofInt z).text = Str.ofInt z := by
  by_cases h : z < 0 <;> simp [ofInt, text, Str.ofInt, fracText, expText, h]

theorem ofInt_value (z : ℤ) : (ofInt z).value = z := by
  rcases Int.natAbs_eq z with h | h
  · have hz : ¬ z < 0 := by omega
    simp only [value, valueOf, ofInt, Str.natValue_ofNat, hz]
    conv_rhs => rw [h]
    simp
  · rcases Nat.eq_zero_or_pos z.natAbs with h0 | hpos
    · have hz : z = 0 := by omega
      subst hz
      simp [value, valueOf, ofInt, Str.natValue_ofNat]
    · have hz : z < 0 := by omega
      simp only [value, valueOf, ofInt, Str.natValue_ofNat, hz]
      conv_rhs => rw [h]
      simp

def readFrac (s : Str) : Option (Option Str × Str) :=
  match s with
  | [] => some (none, [])
  | b :: r =>
    if b = 0x2e then
      let f := r.takeWhile Str.isDigit
      if f = [] then none else some (some f, r.dropWhile Str.isDigit)
    else some (none, s)

def readSign (s : Str) : Bool × Str :=
  match s with
  | [] => (false, [])
  | b :: r => if b = 0x2d then (true, r) else if b = 0x2b then (false, r) else (false, s)

def readExp (s : Str) : Option (ℤ × Str) :=
  match s with
  | [] => some (0, [])
  | b :: r =>
    if b = 0x65 ∨ b = 0x45 then
      let (negative, r) := readSign r
      let e := r.takeWhile Str.isDigit
      if e = [] then none
      else some (if negative then -Str.natValue e else Str.natValue e, r.dropWhile Str.isDigit)
    else some (0, s)

def readMinus (s : Str) : Bool × Str :=
  match s with
  | [] => (false, [])
  | b :: r => if b = 0x2d then (true, r) else (false, s)

def read (s : Str) : Option (ℚ × Str) :=
  let (negative, s) := readMinus s
  let int := s.takeWhile Str.isDigit
  if int = [] ∨ int.head? = some 0x30 ∧ int ≠ [0x30] then none
  else
    match readFrac (s.dropWhile Str.isDigit) with
    | none => none
    | some (frac, s) =>
      match readExp s with
      | none => none
      | some (exp, s) => some (valueOf negative int frac exp, s)

/-- What may stand after a number without being read as part of it. -/
def Ends (s : Str) : Prop :=
  ∀ b r, s = b :: r → Str.isDigit b = false ∧ b ≠ 0x2e ∧ b ≠ 0x65 ∧ b ≠ 0x45

def NoDigit (s : Str) : Prop := ∀ b r, s = b :: r → Str.isDigit b = false

theorem Ends.noDigit {s : Str} (h : Ends s) : NoDigit s := fun b r e => (h b r e).1

theorem take_digits {ds s : Str} (h : ∀ b ∈ ds, Str.isDigit b = true) (hs : NoDigit s) :
    (ds ++ s).takeWhile Str.isDigit = ds ∧ (ds ++ s).dropWhile Str.isDigit = s := by
  rw [List.takeWhile_append_of_pos h, List.dropWhile_append_of_pos h]
  cases s with
  | nil => simp
  | cons b r => simp [hs b r rfl]

theorem Digits.cons {s : Str} (h : Digits s) : ∃ b r, s = b :: r ∧ Str.isDigit b = true := by
  obtain ⟨hne, hd⟩ := h
  cases s with
  | nil => exact absurd rfl hne
  | cons b r => exact ⟨b, r, rfl, hd b (by simp)⟩

theorem readSign_text (sign : Option Bool) {ds s : Str} (h : Digits ds) :
    readSign (signText sign ++ (ds ++ s)) = (sign == some true, ds ++ s) := by
  obtain ⟨b, r, rfl, hb⟩ := h.cons
  have hm : b ≠ 0x2d := by rintro rfl; exact absurd hb (by decide)
  have hp : b ≠ 0x2b := by rintro rfl; exact absurd hb (by decide)
  rcases sign with _ | _ | _ <;> simp [readSign, signText, hm, hp]

theorem readExp_text (exp : Option Exponent) {s : Str} (hs : Ends s) :
    readExp (expText exp ++ s) = some (exp.elim 0 Exponent.value, s) := by
  cases exp with
  | none =>
    cases s with
    | nil => rfl
    | cons b r =>
      obtain ⟨_, _, he, hE⟩ := hs b r rfl
      simp [readExp, expText, he, hE]
  | some e =>
    obtain ⟨htake, hdrop⟩ := take_digits e.ok.2 hs.noDigit
    have hsign := readSign_text e.sign (s := s) e.ok
    cases hu : e.upper <;>
      simp [expText, Exponent.text, hu, readExp, hsign, htake, hdrop, e.ok.1, Exponent.value]

theorem expText_noDigit (exp : Option Exponent) {s : Str} (hs : Ends s) :
    NoDigit (expText exp ++ s) ∧ ∀ r, expText exp ++ s ≠ 0x2e :: r := by
  cases exp with
  | none =>
    refine ⟨hs.noDigit, ?_⟩
    rintro r rfl
    exact (hs 0x2e r rfl).2.1 rfl
  | some e =>
    cases hu : e.upper <;> simp only [expText, Exponent.text, hu] <;>
      refine ⟨?_, by simp⟩ <;> intro b r h <;> cases h <;> decide

theorem readFrac_text (frac : Option Str) (hf : ∀ f ∈ frac, Digits f) {s : Str}
    (hs : NoDigit s) (hdot : ∀ r, s ≠ 0x2e :: r) :
    readFrac (fracText frac ++ s) = some (frac, s) := by
  cases frac with
  | none =>
    cases s with
    | nil => rfl
    | cons b r =>
      have hb : b ≠ 0x2e := by rintro rfl; exact hdot r rfl
      simp [readFrac, fracText, hb]
  | some f =>
    obtain ⟨hne, hd⟩ := hf f rfl
    obtain ⟨htake, hdrop⟩ := take_digits hd hs
    simp [readFrac, fracText, htake, hdrop, hne]

theorem fracText_noDigit (frac : Option Str) {s : Str} (hs : NoDigit s) :
    NoDigit (fracText frac ++ s) := by
  cases frac with
  | none => exact hs
  | some f =>
    intro b r h
    cases h
    decide

theorem text_head (n : JsonNumber) :
    ∃ b r, n.text = b :: r ∧ (b = 0x2d ∨ Str.isDigit b = true) := by
  obtain ⟨b, r, hb, hdig⟩ := n.intDigits.cons
  cases hn : n.negative
  · exact ⟨b, r ++ (fracText n.frac ++ expText n.exp), by simp [text, hn, hb], .inr hdig⟩
  · exact ⟨0x2d, n.int ++ (fracText n.frac ++ expText n.exp), by simp [text, hn], .inl rfl⟩

/-- The reader takes exactly the text of a number off its input. -/
theorem read_text (n : JsonNumber) {s : Str} (hs : Ends s) :
    read (n.text ++ s) = some (n.value, s) := by
  obtain ⟨hexp, hdot⟩ := expText_noDigit n.exp hs
  have hfrac := fracText_noDigit n.frac hexp
  obtain ⟨htake, hdrop⟩ := take_digits n.intDigits.2 hfrac
  have hlead : ¬ (n.int = [] ∨ n.int.head? = some 0x30 ∧ n.int ≠ [0x30]) := by
    intro h
    rcases h with h | ⟨h, hne⟩
    · exact n.intDigits.1 h
    · exact hne (n.noLeadingZero h)
  have hminus : readMinus (n.text ++ s) =
      (n.negative, n.int ++ (fracText n.frac ++ (expText n.exp ++ s))) := by
    obtain ⟨b, r, hb, hdig⟩ := n.intDigits.cons
    have hm : b ≠ 0x2d := by rintro rfl; exact absurd hdig (by decide)
    cases hn : n.negative <;> simp [text, hn, readMinus, hb, hm]
  simp only [read, hminus, htake, hdrop, if_neg hlead, readFrac_text n.frac n.fracDigits hexp hdot,
    readExp_text n.exp hs, value]

end JsonNumber
