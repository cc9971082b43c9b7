import Mathlib.Data.List.Lex
import Mathlib.Data.List.TakeWhile
import Mathlib.Data.Nat.Digits.Lemmas

/-- A byte string, with no assumption about its encoding. -/
abbrev Str := List UInt8

/-- The bytes of a literal. -/
def str (s : String) : Str := s.toList.flatMap String.utf8EncodeChar

/-- Bytes compare as unsigned numbers. -/
instance UInt8.linearOrder : LinearOrder UInt8 where
  le_refl := UInt8.le_refl
  le_trans _ _ _ := UInt8.le_trans
  le_antisymm _ _ := UInt8.le_antisymm
  lt_iff_le_not_ge a b := by
    simp only [UInt8.lt_iff_toNat_lt, UInt8.le_iff_toNat_le]
    omega
  le_total := UInt8.le_total
  toDecidableLE := inferInstance
  toDecidableEq := inferInstance
  toDecidableLT := inferInstance

namespace Str

/-- A byte string that is the UTF-8 encoding of some text. -/
def IsUtf8 (s : Str) : Prop := ∃ cs : List Char, s = cs.flatMap String.utf8EncodeChar

@[simp] theorem isUtf8_str (s : String) : (str s).IsUtf8 := ⟨s.toList, rfl⟩

theorem IsUtf8.append {s t : Str} (hs : s.IsUtf8) (ht : t.IsUtf8) : IsUtf8 (s ++ t) := by
  obtain ⟨cs, rfl⟩ := hs
  obtain ⟨ds, rfl⟩ := ht
  exact ⟨cs ++ ds, List.flatMap_append.symm⟩

theorem isUtf8_iff (s : Str) : s.IsUtf8 ↔ ByteArray.IsValidUTF8 s.toByteArray := by
  constructor
  · rintro ⟨cs, rfl⟩
    exact .intro cs rfl
  · rintro ⟨cs, hcs⟩
    refine ⟨cs, ?_⟩
    have hdata := congrArg (fun b => b.data.toList) hcs
    simpa [List.utf8Encode] using hdata

instance : DecidablePred IsUtf8 := fun s => decidable_of_iff _ (isUtf8_iff s).symm

/-- What a C string keeps of `s`: the bytes before its first NUL. -/
def cstr (s : Str) : Str := s.takeWhile (· ≠ 0)

theorem zero_notMem_cstr (s : Str) : 0 ∉ cstr s := by
  intro h
  have hne := List.mem_takeWhile_imp (p := fun b : UInt8 => decide (b ≠ 0)) (l := s) h
  simp at hne

theorem cstr_append {s : Str} (h : 0 ∉ s) (t : Str) : cstr (s ++ t) = s ++ cstr t := by
  apply List.takeWhile_append_of_pos
  intro b hb
  rw [decide_eq_true_eq]
  rintro rfl
  exact h hb

theorem cstr_eq_self {s : Str} (h : 0 ∉ s) : cstr s = s := by
  simpa [cstr] using cstr_append h []

def digit (d : Nat) : UInt8 := UInt8.ofNat (0x30 + d)

def isDigit (b : UInt8) : Bool := 0x30 ≤ b && b ≤ 0x39

def digitValue (b : UInt8) : Nat := b.toNat - 0x30

/-- The number a run of digits spells, most significant digit first. -/
def natValue (s : Str) : Nat := Nat.ofDigits 10 (s.reverse.map digitValue)

def ofNat (n : Nat) : Str :=
  if n = 0 then [0x30] else (Nat.digits 10 n).reverse.map digit

def ofInt (n : Int) : Str :=
  if n < 0 then 0x2d :: ofNat n.natAbs else ofNat n.natAbs

theorem digit_toNat {d : Nat} (h : d < 10) : (digit d).toNat = 0x30 + d := by
  simp only [digit, UInt8.toNat_ofNat']
  omega

theorem digitValue_digit {d : Nat} (h : d < 10) : digitValue (digit d) = d := by
  simp [digitValue, digit_toNat h]

theorem isDigit_iff (b : UInt8) : isDigit b = true ↔ 0x30 ≤ b.toNat ∧ b.toNat ≤ 0x39 := by
  simp [isDigit, UInt8.le_iff_toNat_le]

theorem isDigit_digit {d : Nat} (h : d < 10) : isDigit (digit d) = true := by
  rw [isDigit_iff, digit_toNat h]
  omega

theorem ofNat_ne_nil (n : Nat) : ofNat n ≠ [] := by
  unfold ofNat
  split
  · simp
  · simp [Nat.digits_ne_nil_iff_ne_zero, *]

theorem ofNat_isDigit (n : Nat) : ∀ b ∈ ofNat n, isDigit b = true := by
  unfold ofNat
  split
  · simp [isDigit]
  · intro b hb
    obtain ⟨d, hd, rfl⟩ := List.mem_map.mp hb
    exact isDigit_digit (Nat.digits_lt_base (by omega) (List.mem_reverse.mp hd))

theorem notMem_ofInt {b : UInt8} (h : isDigit b = false) (hminus : b ≠ 0x2d) (n : Int) :
    b ∉ ofInt n := by
  have hdigits (m : Nat) : b ∉ ofNat m := by
    intro hb
    rw [ofNat_isDigit m b hb] at h
    cases h
  unfold ofInt
  split
  · rw [List.mem_cons, not_or]
    exact ⟨hminus, hdigits _⟩
  · exact hdigits _

/-- Reading back the decimal text of `n` gives `n`. -/
theorem natValue_ofNat (n : Nat) : natValue (ofNat n) = n := by
  unfold ofNat natValue
  split
  · subst n; decide
  · have hd : ∀ d ∈ Nat.digits 10 n, digitValue (digit d) = d := fun d hd =>
      digitValue_digit (Nat.digits_lt_base (by omega) hd)
    have hmap : (Nat.digits 10 n).map (digitValue ∘ digit) = Nat.digits 10 n := by
      rw [List.map_congr_left (g := id) (by simpa using hd), List.map_id]
    rw [← List.map_reverse, List.reverse_reverse, List.map_map, hmap, Nat.ofDigits_digits]

/-- Decimal text has no leading zero, the text of zero apart. -/
theorem ofNat_head (n : Nat) (h : (ofNat n).head? = some 0x30) : ofNat n = [0x30] := by
  unfold ofNat at h ⊢
  split
  · rfl
  · rename_i hn
    exfalso
    have hne : Nat.digits 10 n ≠ [] := Nat.digits_ne_nil_iff_ne_zero.mpr hn
    rw [if_neg hn, List.head?_map, List.head?_reverse, List.getLast?_eq_getLast_of_ne_nil hne,
      Option.map_some, Option.some.injEq] at h
    have hlast := Nat.getLast_digit_ne_zero 10 hn
    have hlt : (Nat.digits 10 n).getLast hne < 10 :=
      Nat.digits_lt_base (by omega) (List.getLast_mem hne)
    have := congrArg UInt8.toNat h
    rw [digit_toNat hlt] at this
    have h30 : (0x30 : UInt8).toNat = 0x30 := rfl
    omega

end Str
