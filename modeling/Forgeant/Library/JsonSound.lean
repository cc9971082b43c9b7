import Forgeant.Library.JsonReader

namespace JsonNumber

theorem split_digits (s : Str) : s = s.takeWhile Str.isDigit ++ s.dropWhile Str.isDigit :=
  List.takeWhile_append_dropWhile.symm

theorem digits_takeWhile {s : Str} (h : s.takeWhile Str.isDigit ≠ []) :
    Digits (s.takeWhile Str.isDigit) := by
  refine ⟨h, ?_⟩
  intro b hb
  exact List.mem_takeWhile_imp hb

theorem readMinus_sound (s : Str) :
    s = (if (readMinus s).1 then [0x2d] else []) ++ (readMinus s).2 := by
  cases s with
  | nil => rfl
  | cons b r =>
    by_cases hb : b = 0x2d
    · simp [readMinus, hb]
    · simp [readMinus, hb]

theorem readSign_sound (s : Str) :
    ∃ sign, s = signText sign ++ (readSign s).2 ∧ (readSign s).1 = decide (sign = some true) := by
  cases s with
  | nil => exact ⟨none, rfl, rfl⟩
  | cons b r =>
    by_cases hm : b = 0x2d
    · exact ⟨some true, by simp [readSign, signText, hm], by simp [readSign, hm]⟩
    · by_cases hp : b = 0x2b
      · exact ⟨some false, by simp [readSign, signText, hp], by simp [readSign, hp]⟩
      · exact ⟨none, by simp [readSign, signText, hm, hp], by simp [readSign, hm, hp]⟩

theorem readFrac_sound {s r : Str} {frac : Option Str} (h : readFrac s = some (frac, r)) :
    s = fracText frac ++ r ∧ ∀ f ∈ frac, Digits f := by
  unfold readFrac at h
  split at h
  · cases h
    simp [fracText]
  · rename_i b s
    split at h
    · rename_i hdot
      subst hdot
      simp only at h
      split at h
      · cases h
      · rename_i hdigits
        cases h
        refine ⟨?_, ?_⟩
        · rw [fracText, List.cons_append, ← split_digits]
        · rintro f ⟨⟩
          exact digits_takeWhile hdigits
    · cases h
      simp [fracText]

theorem readExp_sound {s r : Str} {e : ℤ} (h : readExp s = some (e, r)) :
    ∃ exp : Option Exponent, s = expText exp ++ r ∧ exp.elim 0 Exponent.value = e := by
  unfold readExp at h
  split at h
  · cases h
    exact ⟨none, rfl, rfl⟩
  · rename_i b s
    split at h
    · rename_i hletter
      obtain ⟨sign, hsign, hnegative⟩ := readSign_sound s
      simp only at h
      split at h
      · cases h
      · rename_i hdigits
        cases h
        refine ⟨some ⟨decide (b = 0x45), sign, _, digits_takeWhile hdigits⟩, ?_, ?_⟩
        · have hb : b = if decide (b = 0x45) then 0x45 else 0x65 := by
            rcases hletter with rfl | rfl <;> rfl
          rw [expText, Exponent.text, ← hb, List.cons_append, List.append_assoc, ← split_digits,
            ← hsign]
        · simp [Exponent.value, hnegative]
    · cases h
      exact ⟨none, rfl, rfl⟩

theorem read_sound {s r : Str} {q : ℚ} (h : read s = some (q, r)) :
    ∃ n : JsonNumber, s = n.text ++ r ∧ n.value = q := by
  unfold read at h
  simp only at h
  split at h
  · cases h
  · rename_i hint
    simp only [not_or, not_and, not_not] at hint
    cases hfrac : readFrac ((readMinus s).2.dropWhile Str.isDigit) with
    | none => simp [hfrac] at h
    | some p =>
      obtain ⟨frac, s'⟩ := p
      simp only [hfrac] at h
      obtain ⟨hs', hdigits⟩ := readFrac_sound hfrac
      cases hexp : readExp s' with
      | none => simp [hexp] at h
      | some p =>
        obtain ⟨e, s''⟩ := p
        simp only [hexp] at h
        cases h
        obtain ⟨exp, hs'', he⟩ := readExp_sound hexp
        refine ⟨⟨(readMinus s).1, _, frac, exp, digits_takeWhile hint.1, hint.2, hdigits⟩, ?_, ?_⟩
        · have hminus := readMinus_sound s
          have hsplit := split_digits (readMinus s).2
          simp only [text, List.append_assoc]
          rw [← hs'', ← hs', ← hsplit]
          exact hminus
        · rw [value, he]

end JsonNumber

namespace JsonText

theorem skipWs_split (s : Str) : ∃ w, Ws w ∧ s = w ++ skipWs s := by
  refine ⟨s.takeWhile isWs, ?_, List.takeWhile_append_dropWhile.symm⟩
  intro b hb
  exact List.mem_takeWhile_imp hb

/-- White space, something read, white space again, and what follows. -/
theorem skipWs_chain {s u v x : Str} (hs : skipWs s = v ++ u) (hu : skipWs u = x) :
    ∃ w w', Ws w ∧ Ws w' ∧ s = w ++ (v ++ (w' ++ x)) := by
  obtain ⟨w, hw, hsplit⟩ := skipWs_split s
  obtain ⟨w', hw', hsplit'⟩ := skipWs_split u
  refine ⟨w, w', hw, hw', ?_⟩
  rw [← hu, ← hsplit', ← hs]
  exact hsplit

theorem expect_sound {literal s r : Str} (h : expect literal s = some r) : s = literal ++ r := by
  unfold expect at h
  split at h
  · rename_i hprefix
    cases h
    obtain ⟨t, rfl⟩ := List.isPrefixOf_iff_prefix.mp hprefix
    rw [List.drop_left]
  · cases h

theorem literal_sound {literal s r : Str} {t t' : JsonTree}
    (h : (expect literal s).map (fun r => (t, r)) = some (t', r)) : t = t' ∧ s = literal ++ r := by
  obtain ⟨u, hu, heq⟩ := Option.map_eq_some_iff.mp h
  cases heq
  exact ⟨rfl, expect_sound hu⟩

theorem readHex4_sound {s r : Str} {n : Nat} (h : readHex4 s = some (n, r)) :
    ∃ a b c d, s = a :: b :: c :: d :: r ∧ hex4 a b c d = some n := by
  unfold readHex4 at h
  split at h
  · rename_i a b c d u
    obtain ⟨m, hm, heq⟩ := Option.map_eq_some_iff.mp h
    cases heq
    exact ⟨a, b, c, d, rfl, hm⟩
  · cases h

theorem readUnicode_sound {s x r : Str} (h : readUnicode s = some (x, r)) :
    ∃ c, s = c ++ r ∧ Character (0x5c :: 0x75 :: c) x := by
  unfold readUnicode at h
  cases hn : readHex4 s with
  | none => simp [hn] at h
  | some p =>
    obtain ⟨n, u⟩ := p
    obtain ⟨a, b, c, d, rfl, hhex⟩ := readHex4_sound hn
    simp only [hn] at h
    cases hhigh : isHighSurrogate n with
    | false =>
      cases hlow : isLowSurrogate n with
      | true => simp [hhigh, hlow] at h
      | false =>
        simp only [hhigh, hlow, Bool.false_eq_true, if_false] at h
        cases h
        exact ⟨[a, b, c, d], rfl, .unicode hhex hhigh hlow⟩
    | true =>
      simp only [hhigh, if_true] at h
      cases hu : expect [0x5c, 0x75] u with
      | none => simp [hu] at h
      | some u' =>
        obtain rfl := expect_sound hu
        simp only [hu] at h
        cases hm : readHex4 u' with
        | none => simp [hm] at h
        | some p =>
          obtain ⟨m, u''⟩ := p
          obtain ⟨a', b', c', d', rfl, hhex'⟩ := readHex4_sound hm
          simp only [hm] at h
          cases hlow : isLowSurrogate m with
          | false => simp [hlow] at h
          | true =>
            simp only [hlow, if_true, Option.some.injEq, Prod.mk.injEq] at h
            obtain ⟨rfl, rfl⟩ := h
            have hchar := Character.surrogates hhex hhex' hhigh hlow
            exact ⟨[a, b, c, d, 0x5c, 0x75, a', b', c', d'], by simp, hchar⟩

theorem readCharacter_sound {b : UInt8} {s x r : Str} (hb : b ≠ 0x22)
    (h : readCharacter (b :: s) = some (x, r)) : ∃ c, b :: s = c ++ r ∧ Character c x := by
  simp only [readCharacter] at h
  by_cases hbackslash : b = 0x5c
  · subst hbackslash
    rw [if_pos rfl] at h
    cases s with
    | nil => cases h
    | cons c s =>
      simp only at h
      cases hc : simpleEscape c with
      | some e =>
        simp only [hc] at h
        cases h
        exact ⟨[0x5c, c], rfl, .escape hc⟩
      | none =>
        simp only [hc] at h
        split at h
        · rename_i hu
          subst hu
          obtain ⟨t, rfl, ht⟩ := readUnicode_sound h
          exact ⟨0x5c :: 0x75 :: t, rfl, ht⟩
        · cases h
  · rw [if_neg hbackslash] at h
    split at h
    · cases h
    · rename_i hcontrol
      cases h
      exact ⟨[b], rfl, .plain (not_lt.mp hcontrol) hb hbackslash⟩

theorem readCharacters_sound {n : Nat} {s x r : Str} (h : readCharacters n s = some (x, r)) :
    ∃ c, s = c ++ 0x22 :: r ∧ Characters c x := by
  induction n generalizing s x with
  | zero => cases h
  | succ n ih =>
    cases s with
    | nil => cases h
    | cons b s =>
      simp only [readCharacters] at h
      split at h
      · rename_i hquote
        subst hquote
        cases h
        exact ⟨[], rfl, .nil⟩
      · rename_i hquote
        cases hc : readCharacter (b :: s) with
        | none => simp [hc] at h
        | some p =>
          obtain ⟨y, u⟩ := p
          simp only [hc] at h
          obtain ⟨⟨z, v⟩, hz, heq⟩ := Option.map_eq_some_iff.mp h
          cases heq
          obtain ⟨c, hs, hchar⟩ := readCharacter_sound hquote hc
          obtain ⟨t, rfl, hrest⟩ := ih hz
          exact ⟨c ++ t, by rw [hs, List.append_assoc], .cons hchar hrest⟩

theorem readKey_sound {s x r : Str} (h : readKey s = some (x, r)) :
    ∃ c, s = quoted c ++ r ∧ Characters c x := by
  unfold readKey at h
  split at h
  · cases h
  · split at h
    · rename_i hquote
      subst hquote
      obtain ⟨c, hs, hc⟩ := readCharacters_sound h
      exact ⟨c, by simp [quoted, hs], hc⟩
    · cases h

mutual

/-- What the reader takes off its input is a value. -/
theorem readValue_sound (n : Nat) {s r : Str} {t : JsonTree} (h : readValue n s = some (t, r)) :
    ∃ v, s = v ++ r ∧ Value v t := by
  cases n with
  | zero => cases h
  | succ n =>
    cases s with
    | nil => cases h
    | cons b s =>
      simp only [readValue] at h
      split at h
      · obtain ⟨rfl, hs⟩ := literal_sound h
        exact ⟨_, hs, .null⟩
      split at h
      · obtain ⟨rfl, hs⟩ := literal_sound h
        exact ⟨_, hs, .boolean true⟩
      split at h
      · obtain ⟨rfl, hs⟩ := literal_sound h
        exact ⟨_, hs, .boolean false⟩
      split at h
      · obtain ⟨⟨x, u⟩, hu, heq⟩ := Option.map_eq_some_iff.mp h
        cases heq
        obtain ⟨c, hs, hc⟩ := readKey_sound hu
        exact ⟨_, hs, .string hc⟩
      split at h
      · rename_i hbracket
        subst hbracket
        split at h
        · rename_i u hu
          cases h
          obtain ⟨w, hw, hs⟩ := skipWs_split s
          rw [expect_sound hu] at hs
          exact ⟨_, by rw [hs]; simp, .array (.nil hw)⟩
        · cases hv : readValue n (skipWs s) with
          | none => simp [hv] at h
          | some p =>
            obtain ⟨t, u⟩ := p
            simp only [hv] at h
            obtain ⟨⟨ts, u'⟩, hts, heq⟩ := Option.map_eq_some_iff.mp h
            cases heq
            obtain ⟨v, hv, hvalue⟩ := readValue_sound n hv
            obtain ⟨rest, hrest, hmore⟩ := readElements_sound n hts
            obtain ⟨w, w', hw, hw', hs⟩ := skipWs_chain hv hrest
            exact ⟨_, by rw [hs]; simp, .array (.cons hw hvalue hw' hmore)⟩
      split at h
      · rename_i hbrace
        subst hbrace
        split at h
        · rename_i u hu
          cases h
          obtain ⟨w, hw, hs⟩ := skipWs_split s
          rw [expect_sound hu] at hs
          exact ⟨_, by rw [hs]; simp, .object (.nil hw)⟩
        · cases hm : readMember n (skipWs s) with
          | none => simp [hm] at h
          | some p =>
            obtain ⟨⟨key, t⟩, u⟩ := p
            simp only [hm] at h
            obtain ⟨⟨ms, u'⟩, hms, heq⟩ := Option.map_eq_some_iff.mp h
            cases heq
            obtain ⟨k, w₁, w₂, v, hv, hk, hw₁, hw₂, hvalue⟩ := readMember_sound n hm
            obtain ⟨rest, hrest, hmore⟩ := readMembers_sound n hms
            obtain ⟨w, w', hw, hw', hs⟩ := skipWs_chain hv hrest
            exact ⟨_, by rw [hs]; simp, .object (.cons hw hk hw₁ hw₂ hvalue hw' hmore)⟩
      · obtain ⟨⟨q, u⟩, hu, heq⟩ := Option.map_eq_some_iff.mp h
        cases heq
        obtain ⟨m, hs, rfl⟩ := JsonNumber.read_sound hu
        exact ⟨_, hs, .number m⟩

theorem readElements_sound (n : Nat) {s r : Str} {ts : List JsonTree}
    (h : readElements n s = some (ts, r)) : ∃ u, s = u ++ 0x5d :: r ∧ MoreElements u ts := by
  cases n with
  | zero => cases h
  | succ n =>
    cases s with
    | nil => cases h
    | cons b s =>
      simp only [readElements] at h
      split at h
      · rename_i hclose
        subst hclose
        cases h
        exact ⟨[], rfl, .nil⟩
      split at h
      · rename_i hcomma
        subst hcomma
        cases hv : readValue n (skipWs s) with
        | none => simp [hv] at h
        | some p =>
          obtain ⟨t, u⟩ := p
          simp only [hv] at h
          obtain ⟨⟨ts, u'⟩, hts, heq⟩ := Option.map_eq_some_iff.mp h
          cases heq
          obtain ⟨v, hv, hvalue⟩ := readValue_sound n hv
          obtain ⟨rest, hrest, hmore⟩ := readElements_sound n hts
          obtain ⟨w, w', hw, hw', hs⟩ := skipWs_chain hv hrest
          exact ⟨_, by rw [hs]; simp, .cons hw hvalue hw' hmore⟩
      · cases h

theorem readMember_sound (n : Nat) {s r key : Str} {t : JsonTree}
    (h : readMember n s = some ((key, t), r)) :
    ∃ k w₁ w₂ v, s = (quoted k ++ (w₁ ++ 0x3a :: (w₂ ++ v))) ++ r ∧ Characters k key ∧
      Ws w₁ ∧ Ws w₂ ∧ Value v t := by
  cases n with
  | zero => cases h
  | succ n =>
    simp only [readMember] at h
    cases hk : readKey s with
    | none => simp [hk] at h
    | some p =>
      obtain ⟨x, u⟩ := p
      simp only [hk] at h
      cases hc : expect [0x3a] (skipWs u) with
      | none => simp [hc] at h
      | some u' =>
        simp only [hc] at h
        obtain ⟨⟨t', u''⟩, hv, heq⟩ := Option.map_eq_some_iff.mp h
        cases heq
        obtain ⟨k, hs, hchars⟩ := readKey_sound hk
        obtain ⟨w₁, hw₁, hu⟩ := skipWs_split u
        obtain ⟨w₂, hw₂, hu'⟩ := skipWs_split u'
        obtain ⟨v, hv, hvalue⟩ := readValue_sound n hv
        rw [expect_sound hc, hu', hv] at hu
        exact ⟨k, w₁, w₂, v, by rw [hs, hu]; simp, hchars, hw₁, hw₂, hvalue⟩

theorem readMembers_sound (n : Nat) {s r : Str} {ms : List (Str × JsonTree)}
    (h : readMembers n s = some (ms, r)) : ∃ u, s = u ++ 0x7d :: r ∧ MoreMembers u ms := by
  cases n with
  | zero => cases h
  | succ n =>
    cases s with
    | nil => cases h
    | cons b s =>
      simp only [readMembers] at h
      split at h
      · rename_i hclose
        subst hclose
        cases h
        exact ⟨[], rfl, .nil⟩
      split at h
      · rename_i hcomma
        subst hcomma
        cases hm : readMember n (skipWs s) with
        | none => simp [hm] at h
        | some p =>
          obtain ⟨⟨key, t⟩, u⟩ := p
          simp only [hm] at h
          obtain ⟨⟨ms, u'⟩, hms, heq⟩ := Option.map_eq_some_iff.mp h
          cases heq
          obtain ⟨k, w₁, w₂, v, hv, hk, hw₁, hw₂, hvalue⟩ := readMember_sound n hm
          obtain ⟨rest, hrest, hmore⟩ := readMembers_sound n hms
          obtain ⟨w, w', hw, hw', hs⟩ := skipWs_chain hv hrest
          exact ⟨_, by rw [hs]; simp, .cons hw hk hw₁ hw₂ hvalue hw' hmore⟩
      · cases h

end

/-- The reader accepts the texts of the grammar and no others. -/
theorem read_iff {text : Str} {t : JsonTree} : read text = some t ↔ Denotes text t := by
  refine ⟨?_, read_complete⟩
  intro h
  unfold read at h
  cases hv : readValue (text.length + 1) (skipWs text) with
  | none => simp [hv] at h
  | some p =>
    obtain ⟨t', r⟩ := p
    simp only [hv] at h
    split at h
    · rename_i hend
      cases h
      obtain ⟨w, hw, htext⟩ := skipWs_split text
      obtain ⟨v, hv, hvalue⟩ := readValue_sound _ hv
      obtain ⟨w', hw', hr⟩ := skipWs_split r
      rw [hend, List.append_nil] at hr
      subst hr
      rw [hv] at htext
      exact ⟨w, v, _, hw, hvalue, hw', htext⟩
    · cases h

end JsonText
