import Forgeant.Library.Str
import Mathlib.Data.List.DropRight

/-- `std::string_view`. Its length is a `std::size_t`. -/
structure StringView where
  chars : Str
  size_lt : chars.length < 2 ^ 64

namespace StringView

/-- The largest `std::size_t`, which is no position of any view. -/
def npos : UInt64 := 0xffffffffffffffff

def size (v : StringView) : UInt64 := UInt64.ofNat v.chars.length

/-- What a search returns. -/
def position : Option Nat → UInt64
  | some i => UInt64.ofNat i
  | none => npos

/-- `v.find(c)`. -/
def find (v : StringView) (c : UInt8) : UInt64 := position (v.chars.findIdx? (· == c))

/-- `v.find_first_not_of(c, pos)`. -/
def findFirstNotOf (v : StringView) (c : UInt8) (pos : UInt64) : UInt64 :=
  position (((v.chars.drop pos.toNat).findIdx? (· != c)).map (pos.toNat + ·))

/-- `v.find_last_not_of(set)`. -/
def findLastNotOf (v : StringView) (set : Str) : UInt64 :=
  position ((v.chars.reverse.findIdx? (!set.contains ·)).map (v.chars.length - 1 - ·))

/-- `v.substr(pos, count)`, or nothing where that throws. -/
def substr (v : StringView) (pos count : UInt64) : Option Str :=
  if pos.toNat ≤ v.chars.length then some ((v.chars.drop pos.toNat).take count.toNat) else none

theorem toNat_position {i : Nat} (h : i < 2 ^ 64) : (position (some i)).toNat = i :=
  UInt64.toNat_ofNat_of_lt' h

theorem position_ne_npos {i : Nat} (h : i + 1 < 2 ^ 64) : position (some i) ≠ npos := by
  intro heq
  have := congrArg UInt64.toNat heq
  rw [toNat_position (by omega)] at this
  have hnpos : npos.toNat = 2 ^ 64 - 1 := rfl
  omega

/-- The first element that passes a test stands after those that fail it. -/
theorem findIdx?_append_cons {α : Type} {p : α → Bool} {pre suf : List α} {b : α}
    (hpre : ∀ a ∈ pre, p a = false) (hb : p b = true) :
    (pre ++ b :: suf).findIdx? p = some pre.length := by
  rw [List.findIdx?_append, List.findIdx?_eq_none_iff.mpr hpre, List.findIdx?_cons, if_pos hb]
  simp

variable {v : StringView} {pre suf : Str} {b c : UInt8}

theorem beq_of_notMem {s : Str} (h : c ∉ s) : ∀ a ∈ s, (a == c) = false := by
  intro a ha
  rw [beq_eq_false_iff_ne]
  rintro rfl
  exact h ha

theorem find_eq (hv : v.chars = pre ++ c :: suf) (hpre : c ∉ pre) :
    v.find c = position (some pre.length) := by
  unfold find
  rw [hv, findIdx?_append_cons (beq_of_notMem hpre) (by simp)]

theorem find_eq_npos (h : c ∉ v.chars) : v.find c = npos := by
  unfold find
  rw [List.findIdx?_eq_none_iff.mpr (beq_of_notMem h)]
  rfl

theorem findFirstNotOf_eq {mid : Str} {pos : UInt64} (hv : v.chars = pre ++ (mid ++ b :: suf))
    (hpos : pos.toNat = pre.length) (hmid : ∀ a ∈ mid, a = c) (hb : b ≠ c) :
    v.findFirstNotOf c pos = position (some (pre.length + mid.length)) := by
  have hsame : ∀ a ∈ mid, (a != c) = false := by
    intro a ha
    simp [hmid a ha]
  unfold findFirstNotOf
  rw [hv, hpos, List.drop_left, findIdx?_append_cons hsame (by simpa using hb)]
  rfl

theorem findFirstNotOf_eq_npos {pos : UInt64} (h : ∀ a ∈ v.chars.drop pos.toNat, a = c) :
    v.findFirstNotOf c pos = npos := by
  have hsame : ∀ a ∈ v.chars.drop pos.toNat, (a != c) = false := by
    intro a ha
    simp [h a ha]
  unfold findFirstNotOf
  rw [List.findIdx?_eq_none_iff.mpr hsame]
  rfl

theorem findLastNotOf_eq {set : Str} (hv : v.chars = pre ++ b :: suf) (hb : b ∉ set)
    (hsuf : ∀ a ∈ suf, a ∈ set) : v.findLastNotOf set = position (some pre.length) := by
  have hrev : v.chars.reverse = suf.reverse ++ b :: pre.reverse := by simp [hv]
  have hset : ∀ a ∈ suf.reverse, (!set.contains a) = false := by
    intro a ha
    simpa using hsuf a (List.mem_reverse.mp ha)
  unfold findLastNotOf
  rw [hrev, findIdx?_append_cons hset (by simpa using hb)]
  simp [hv]

theorem substr_eq {mid : Str} {pos count : UInt64} (hv : v.chars = pre ++ (mid ++ suf))
    (hpos : pos.toNat = pre.length) (hcount : count.toNat = mid.length) :
    v.substr pos count = some mid := by
  unfold substr
  rw [hv, hpos, hcount, if_pos (by simp), List.drop_left, List.take_left]

/-- A length computed from its two ends, the last of which may lie one before
the first. -/
theorem toNat_length {first last length : Nat} (h : last + 1 = first + length)
    (hlast : last + 1 < 2 ^ 64) :
    (position (some last) - position (some first) + 1).toNat = length := by
  rw [UInt64.toNat_add, UInt64.toNat_sub, toNat_position (by omega), toNat_position (by omega)]
  have hone : (1 : UInt64).toNat = 1 := rfl
  rw [hone]
  omega

end StringView
