import Forgeant.Library.JsonText

namespace JsonText

def skipWs (s : Str) : Str := s.dropWhile isWs

/-- `s` without the prefix `literal`. -/
def expect (literal s : Str) : Option Str :=
  if literal.isPrefixOf s then some (s.drop literal.length) else none

def readHex4 : Str → Option (Nat × Str)
  | a :: b :: c :: d :: r => (hex4 a b c d).map (fun n => (n, r))
  | _ => none

def readUnicode (s : Str) : Option (Str × Str) :=
  match readHex4 s with
  | none => none
  | some (n, r) =>
    if isHighSurrogate n then
      match expect [0x5c, 0x75] r with
      | none => none
      | some r =>
        match readHex4 r with
        | none => none
        | some (m, r) =>
          if isLowSurrogate m then
            some (utf8 (0x10000 + (n - 0xd800) * 0x400 + (m - 0xdc00)), r)
          else none
    else if isLowSurrogate n then none
    else some (utf8 n, r)

def readCharacter : Str → Option (Str × Str)
  | [] => none
  | b :: r =>
    if b = 0x5c then
      match r with
      | [] => none
      | c :: r =>
        match simpleEscape c with
        | some b => some ([b], r)
        | none => if c = 0x75 then readUnicode r else none
    else if b < 0x20 then none
    else some ([b], r)

/-- Characters up to the closing quote. -/
def readCharacters : Nat → Str → Option (Str × Str)
  | 0, _ => none
  | _ + 1, [] => none
  | n + 1, b :: r =>
    if b = 0x22 then some ([], r)
    else
      match readCharacter (b :: r) with
      | none => none
      | some (x, r) => (readCharacters n r).map (fun p => (x ++ p.1, p.2))

def readKey (s : Str) : Option (Str × Str) :=
  match s with
  | [] => none
  | b :: r => if b = 0x22 then readCharacters (r.length + 1) r else none

mutual

def readValue : Nat → Str → Option (JsonTree × Str)
  | 0, _ => none
  | _ + 1, [] => none
  | n + 1, b :: r =>
    if b = 0x6e then (expect (str "null") (b :: r)).map (fun r => (.null, r))
    else if b = 0x74 then (expect (str "true") (b :: r)).map (fun r => (.boolean true, r))
    else if b = 0x66 then (expect (str "false") (b :: r)).map (fun r => (.boolean false, r))
    else if b = 0x22 then (readKey (b :: r)).map (fun p => (.string p.1, p.2))
    else if b = 0x5b then
      match expect [0x5d] (skipWs r) with
      | some r => some (.array [], r)
      | none =>
        match readValue n (skipWs r) with
        | none => none
        | some (t, r) => (readElements n (skipWs r)).map (fun p => (.array (t :: p.1), p.2))
    else if b = 0x7b then
      match expect [0x7d] (skipWs r) with
      | some r => some (.object [], r)
      | none =>
        match readMember n (skipWs r) with
        | none => none
        | some (m, r) => (readMembers n (skipWs r)).map (fun p => (.object (m :: p.1), p.2))
    else (JsonNumber.read (b :: r)).map (fun p => (.number p.1, p.2))

def readElements : Nat → Str → Option (List JsonTree × Str)
  | 0, _ => none
  | _ + 1, [] => none
  | n + 1, b :: r =>
    if b = 0x5d then some ([], r)
    else if b = 0x2c then
      match readValue n (skipWs r) with
      | none => none
      | some (t, r) => (readElements n (skipWs r)).map (fun p => (t :: p.1, p.2))
    else none

def readMember : Nat → Str → Option ((Str × JsonTree) × Str)
  | 0, _ => none
  | n + 1, s =>
    match readKey s with
    | none => none
    | some (k, r) =>
      match expect [0x3a] (skipWs r) with
      | none => none
      | some r => (readValue n (skipWs r)).map (fun p => ((k, p.1), p.2))

def readMembers : Nat → Str → Option (List (Str × JsonTree) × Str)
  | 0, _ => none
  | _ + 1, [] => none
  | n + 1, b :: r =>
    if b = 0x7d then some ([], r)
    else if b = 0x2c then
      match readMember n (skipWs r) with
      | none => none
      | some (m, r) => (readMembers n (skipWs r)).map (fun p => (m :: p.1, p.2))
    else none

end

/-- The tree a JSON text denotes; nothing but white space may follow it. -/
def read (text : Str) : Option JsonTree :=
  match readValue (text.length + 1) (skipWs text) with
  | none => none
  | some (t, r) => if skipWs r = [] then some t else none

/-- White space is skipped whole, up to a byte that is none. -/
theorem skipWs_append {w s : Str} (h : Ws w) (hs : ∀ b r, s = b :: r → isWs b = false) :
    skipWs (w ++ s) = s := by
  rw [skipWs, List.dropWhile_append_of_pos h]
  cases s with
  | nil => rfl
  | cons b r => simp [hs b r rfl]

theorem Character.head {s x : Str} (h : Character s x) : ∃ b r, s = b :: r ∧ b ≠ 0x22 := by
  cases h with
  | plain _ hq _ => exact ⟨_, _, rfl, hq⟩
  | escape => exact ⟨_, _, rfl, by decide⟩
  | unicode => exact ⟨_, _, rfl, by decide⟩
  | surrogates => exact ⟨_, _, rfl, by decide⟩

theorem Character.read {s x : Str} (h : Character s x) (r : Str) :
    readCharacter (s ++ r) = some (x, r) := by
  cases h with
  | plain h hq hb => simp [readCharacter, hb, not_lt.mpr h]
  | escape h => simp [readCharacter, h]
  | unicode h hhigh hlow =>
    simp [readCharacter, readUnicode, readHex4, h, hhigh, hlow, simpleEscape]
  | surrogates h h' hhigh hlow =>
    simp [readCharacter, readUnicode, readHex4, h, h', hhigh, hlow, simpleEscape, expect]

theorem Characters.read {s x : Str} (h : Characters s x) (r : Str) (n : Nat)
    (hn : s.length < n) : readCharacters n (s ++ 0x22 :: r) = some (x, r) := by
  induction h generalizing n with
  | nil =>
    cases n with
    | zero => simp at hn
    | succ n => simp [readCharacters]
  | @cons s t x y hc _ ih =>
    obtain ⟨b, u, rfl, hb⟩ := hc.head
    cases n with
    | zero => simp at hn
    | succ n =>
      simp only [List.cons_append, List.length_cons, List.length_append] at hn
      have hread := hc.read (t ++ 0x22 :: r)
      have hrest := ih n (by omega)
      simp only [List.cons_append, List.append_assoc] at hread ⊢
      simp [readCharacters, hb, hread, hrest]

theorem Characters.readKey {s x : Str} (h : Characters s x) (r : Str) :
    JsonText.readKey (quoted s ++ r) = some (x, r) := by
  have := h.read r (s.length + 1 + r.length + 1) (by omega)
  simpa [quoted, JsonText.readKey, Nat.add_assoc, Nat.add_comm, Nat.add_left_comm] using this

/-- What may come after a value: white space, a byte that goes on with or
closes what the value stands in, or the end. -/
def Follow (s : Str) : Prop :=
  ∀ b r, s = b :: r → isWs b = true ∨ b = 0x2c ∨ b = 0x5d ∨ b = 0x7d

theorem Follow.ends {s : Str} (h : Follow s) : JsonNumber.Ends s := by
  intro b r hs
  rcases h b r hs with hw | rfl | rfl | rfl
  · simp only [isWs, Bool.or_eq_true, beq_iff_eq] at hw
    rcases hw with ((rfl | rfl) | rfl) | rfl <;> decide
  all_goals decide

theorem Follow.ws {w s : Str} (hw : Ws w) (hs : Follow s) : Follow (w ++ s) := by
  intro b r h
  cases w with
  | nil => exact hs b r h
  | cons c w =>
    cases h
    exact .inl (hw b (by simp))

theorem Value.head {s : Str} {t : JsonTree} (h : Value s t) :
    ∃ b r, s = b :: r ∧ isWs b = false ∧ b ≠ 0x5d := by
  cases h with
  | null => exact ⟨_, _, rfl, by decide⟩
  | boolean b => cases b <;> exact ⟨_, _, rfl, by decide⟩
  | number n =>
    obtain ⟨b, r, hb, h⟩ := n.text_head
    have ne (c : UInt8) (hc : ¬ (c = 0x2d ∨ Str.isDigit c = true)) : b ≠ c := by
      rintro rfl
      exact hc h
    refine ⟨b, r, hb, ?_, ne 0x5d (by decide)⟩
    simp [isWs, ne 0x20 (by decide), ne 0x09 (by decide), ne 0x0a (by decide),
      ne 0x0d (by decide)]
  | string => exact ⟨_, _, rfl, by decide⟩
  | array => exact ⟨_, _, rfl, by decide⟩
  | object => exact ⟨_, _, rfl, by decide⟩

theorem Value.noWs {s : Str} {t : JsonTree} (h : Value s t) (u : Str) :
    ∀ b r, s ++ u = b :: r → isWs b = false := by
  obtain ⟨c, v, rfl, hc, _⟩ := h.head
  rintro b r ⟨⟩
  exact hc

theorem Follow.of_head {s : Str} {b : UInt8} {r : Str} (h : s = b :: r)
    (hb : isWs b = true ∨ b = 0x2c ∨ b = 0x5d ∨ b = 0x7d) : Follow s := by
  rintro c u hs
  cases h.symm.trans hs
  exact hb

theorem MoreElements.head {s : Str} {ts : List JsonTree} (h : MoreElements s ts) (u : Str) :
    ∃ b r, s ++ 0x5d :: u = b :: r ∧ (b = 0x2c ∨ b = 0x5d) := by
  cases h with
  | nil => exact ⟨_, _, rfl, .inr rfl⟩
  | cons => exact ⟨_, _, rfl, .inl rfl⟩

theorem MoreMembers.head {s : Str} {ms : List (Str × JsonTree)} (h : MoreMembers s ms) (u : Str) :
    ∃ b r, s ++ 0x7d :: u = b :: r ∧ (b = 0x2c ∨ b = 0x7d) := by
  cases h with
  | nil => exact ⟨_, _, rfl, .inr rfl⟩
  | cons => exact ⟨_, _, rfl, .inl rfl⟩

/-- After a value come white space and then a separator or a closing byte. -/
theorem follow_of_head {w s : Str} {b : UInt8} {r : Str} (hw : Ws w) (h : s = b :: r)
    (hb : b = 0x2c ∨ b = 0x5d ∨ b = 0x7d) : Follow (w ++ s) ∧ skipWs (w ++ s) = s := by
  refine ⟨.ws hw (.of_head h (.inr hb)), skipWs_append hw ?_⟩
  intro c v hc
  cases h.symm.trans hc
  rcases hb with rfl | rfl | rfl <;> decide

theorem MoreElements.follow {w s : Str} {ts : List JsonTree} (h : MoreElements s ts) (hw : Ws w)
    (u : Str) :
    Follow (w ++ (s ++ 0x5d :: u)) ∧ skipWs (w ++ (s ++ 0x5d :: u)) = s ++ 0x5d :: u := by
  obtain ⟨b, r, h, hb⟩ := h.head u
  exact follow_of_head hw h (by tauto)

theorem MoreMembers.follow {w s : Str} {ms : List (Str × JsonTree)} (h : MoreMembers s ms)
    (hw : Ws w) (u : Str) :
    Follow (w ++ (s ++ 0x7d :: u)) ∧ skipWs (w ++ (s ++ 0x7d :: u)) = s ++ 0x7d :: u := by
  obtain ⟨b, r, h, hb⟩ := h.head u
  exact follow_of_head hw h (by tauto)

theorem readValue_number (m : JsonNumber) {r : Str} (hr : Follow r) (n : Nat) :
    readValue (n + 1) (m.text ++ r) = some (.number m.value, r) := by
  have hread := m.read_text hr.ends
  obtain ⟨b, u, hb, h⟩ := m.text_head
  have ne (c : UInt8) (hc : ¬ (c = 0x2d ∨ Str.isDigit c = true)) : b ≠ c := by
    rintro rfl
    exact hc h
  rw [hb, List.cons_append] at hread ⊢
  simp [readValue, hread, ne 0x6e (by decide), ne 0x74 (by decide), ne 0x66 (by decide),
    ne 0x22 (by decide), ne 0x5b (by decide), ne 0x7b (by decide)]

theorem readMember_of {k key w w' s v : Str} {t : JsonTree} {n : Nat} (hk : Characters k key)
    (hw : Ws w) (hw' : Ws w') (h : Value s t) (hread : readValue n (s ++ v) = some (t, v)) :
    readMember (n + 1) (quoted k ++ (w ++ 0x3a :: (w' ++ (s ++ v)))) = some ((key, t), v) := by
  have hkey := hk.readKey (w ++ 0x3a :: (w' ++ (s ++ v)))
  have hcolon := skipWs_append hw (s := 0x3a :: (w' ++ (s ++ v))) (by rintro b r ⟨⟩; decide)
  have hval := skipWs_append hw' (h.noWs v)
  simp [readMember, hkey, hcolon, expect, hval, hread]

theorem quoted_noWs (k u : Str) : ∀ b r, quoted k ++ u = b :: r → isWs b = false := by
  rintro b r ⟨⟩
  decide

mutual

/-- The reader takes a value off its input, given fuel for each of its bytes. -/
theorem Value.read {s : Str} {t : JsonTree} (h : Value s t) (n : Nat) (r : Str)
    (hn : s.length < n) (hr : Follow r) : readValue n (s ++ r) = some (t, r) := by
  cases n with
  | zero => simp at hn
  | succ n =>
    cases h with
    | null => simp [readValue, str, String.utf8EncodeChar, expect]
    | boolean b => cases b <;> simp [readValue, str, String.utf8EncodeChar, expect]
    | number m => exact readValue_number m hr n
    | string hc =>
      have hkey := hc.readKey r
      simp only [quoted, List.cons_append] at hkey ⊢
      simp only [readValue]
      rw [hkey]
      simp
    | @array s _ he =>
      have := he.read n r (by simpa using hn)
      simpa using this
    | @object s _ hm =>
      have := hm.read n r (by simpa using hn)
      simpa using this

theorem Elements.read {s : Str} {ts : List JsonTree} (h : Elements s ts) (n : Nat) (r : Str)
    (hn : s.length + 1 < n) :
    readValue (n + 1) (0x5b :: (s ++ 0x5d :: r)) = some (.array ts, r) := by
  cases h with
  | nil hw =>
    have hskip := skipWs_append hw (s := 0x5d :: r) (by rintro b v ⟨⟩; decide)
    simp [readValue, hskip, expect]
  | @cons w s w' u t ts hw hv hw' rest =>
    simp only [List.length_append] at hn
    obtain ⟨hfollow, hskip'⟩ := rest.follow hw' r
    have hread := hv.read n (w' ++ (u ++ 0x5d :: r)) (by omega) hfollow
    have hrest := rest.read n r (by omega)
    have hskip := skipWs_append hw (hv.noWs (w' ++ (u ++ 0x5d :: r)))
    obtain ⟨c, x, hcx, _, hc⟩ := hv.head
    have hopen : expect [0x5d] (s ++ (w' ++ (u ++ 0x5d :: r))) = none := by
      simp [hcx, expect, hc.symm]
    simp [readValue, hskip, hopen, hread, hskip', hrest]

theorem MoreElements.read {s : Str} {ts : List JsonTree} (h : MoreElements s ts) (n : Nat)
    (r : Str) (hn : s.length < n) : readElements n (s ++ 0x5d :: r) = some (ts, r) := by
  cases n with
  | zero => simp at hn
  | succ n =>
    cases h with
    | nil => simp [readElements]
    | @cons w s w' u t ts hw hv hw' rest =>
      simp only [List.length_cons, List.length_append] at hn
      obtain ⟨hfollow, hskip'⟩ := rest.follow hw' r
      have hread := hv.read n (w' ++ (u ++ 0x5d :: r)) (by omega) hfollow
      have hrest := rest.read n r (by omega)
      have hskip := skipWs_append hw (hv.noWs (w' ++ (u ++ 0x5d :: r)))
      simp [readElements, hskip, hread, hskip', hrest]

theorem Members.read {s : Str} {ms : List (Str × JsonTree)} (h : Members s ms) (n : Nat) (r : Str)
    (hn : s.length + 1 < n) :
    readValue (n + 1) (0x7b :: (s ++ 0x7d :: r)) = some (.object ms, r) := by
  cases h with
  | nil hw =>
    have hskip := skipWs_append hw (s := 0x7d :: r) (by rintro b v ⟨⟩; decide)
    simp [readValue, hskip, expect]
  | @cons w k w₁ w₂ s w' u key t ms hw hk hw₁ hw₂ hv hw' rest =>
    simp only [List.length_append, List.length_cons] at hn
    obtain ⟨hfollow, hskip'⟩ := rest.follow hw' r
    obtain ⟨n, rfl⟩ : ∃ m, n = m + 1 := ⟨n - 1, by omega⟩
    have hread := hv.read n (w' ++ (u ++ 0x7d :: r)) (by omega) hfollow
    have hmember := readMember_of hk hw₁ hw₂ hv hread
    have hrest := rest.read (n + 1) r (by omega)
    have hskip := skipWs_append hw
      (quoted_noWs k (w₁ ++ 0x3a :: (w₂ ++ (s ++ (w' ++ (u ++ 0x7d :: r))))))
    have hopen : expect [0x7d] (quoted k ++ (w₁ ++ 0x3a :: (w₂ ++ (s ++ (w' ++ (u ++ 0x7d :: r))))))
        = none := by
      simp [quoted, expect]
    simp [readValue, hskip, hopen, hmember, hskip', hrest]

theorem MoreMembers.read {s : Str} {ms : List (Str × JsonTree)} (h : MoreMembers s ms) (n : Nat)
    (r : Str) (hn : s.length < n) : readMembers n (s ++ 0x7d :: r) = some (ms, r) := by
  cases n with
  | zero => simp at hn
  | succ n =>
    cases h with
    | nil => simp [readMembers]
    | @cons w k w₁ w₂ s w' u key t ms hw hk hw₁ hw₂ hv hw' rest =>
      simp only [List.length_append, List.length_cons] at hn
      obtain ⟨hfollow, hskip'⟩ := rest.follow hw' r
      obtain ⟨n, rfl⟩ : ∃ m, n = m + 1 := ⟨n - 1, by omega⟩
      have hread := hv.read n (w' ++ (u ++ 0x7d :: r)) (by omega) hfollow
      have hmember := readMember_of hk hw₁ hw₂ hv hread
      have hrest := rest.read (n + 1) r (by omega)
      have hskip := skipWs_append hw
        (quoted_noWs k (w₁ ++ 0x3a :: (w₂ ++ (s ++ (w' ++ (u ++ 0x7d :: r))))))
      simp [readMembers, hskip, hmember, hskip', hrest]

end

theorem Value.read_container {s : Str} {t : JsonTree} (h : Value s t) (ht : t.IsContainer) (n : Nat)
    (r : Str) (hn : s.length < n) : readValue n (s ++ r) = some (t, r) := by
  cases n with
  | zero => simp at hn
  | succ n =>
    cases h with
    | @array s _ he =>
      have := he.read n r (by simpa using hn)
      simpa using this
    | @object s _ hm =>
      have := hm.read n r (by simpa using hn)
      simpa using this
    | _ => exact ht.elim

theorem Value.container_head {s : Str} {t : JsonTree} (h : Value s t) (ht : t.IsContainer) :
    ∃ b u, s = b :: u ∧ (b = 0x5b ∨ b = 0x7b) := by
  cases h with
  | array => exact ⟨_, _, rfl, .inl rfl⟩
  | object => exact ⟨_, _, rfl, .inr rfl⟩
  | _ => exact ht.elim

theorem Value.container_of_head {b : UInt8} {u : Str} {t : JsonTree} (h : Value (b :: u) t)
    (hb : b = 0x5b ∨ b = 0x7b) : t.IsContainer := by
  generalize hs : b :: u = s at h
  cases h with
  | array => trivial
  | object => trivial
  | null =>
    cases hs
    exact absurd hb (by decide)
  | boolean c =>
    cases c <;>
    · cases hs
      exact absurd hb (by decide)
  | number n =>
    obtain ⟨c, v, hc, hhead⟩ := n.text_head
    cases hs.trans hc
    rcases hb with rfl | rfl <;> exact absurd hhead (by decide)
  | string =>
    cases hs
    exact absurd hb (by decide)

/-- No other value starts a text that an array or an object starts. -/
theorem Value.container_unique {s s' r r' : Str} {t t' : JsonTree} (h : Value s t)
    (ht : t.IsContainer) (h' : Value s' t') (heq : s ++ r = s' ++ r') :
    s = s' ∧ t = t' ∧ r = r' := by
  obtain ⟨b, u, rfl, hb⟩ := h.container_head ht
  obtain ⟨b', u', rfl, _⟩ := h'.head
  obtain rfl : b = b' := List.head_eq_of_cons_eq heq
  have ht' := h'.container_of_head hb
  have hread := h.read_container ht ((b :: u).length + (b :: u').length + 1) r (by omega)
  have hread' := h'.read_container ht' ((b :: u).length + (b :: u').length + 1) r' (by omega)
  rw [heq, hread'] at hread
  cases hread
  exact ⟨List.append_cancel_right heq, rfl, rfl⟩

/-- The reader reads every text of the grammar, as the tree it denotes. -/
theorem read_complete {text : Str} {t : JsonTree} (h : Denotes text t) : read text = some t := by
  obtain ⟨w, s, w', hw, hv, hw', rfl⟩ := h
  have hfollow : Follow w' := by
    simpa using Follow.ws hw' (s := []) (by simp [Follow])
  have hend : skipWs w' = [] := by
    simpa using skipWs_append hw' (s := []) (by simp)
  have hread := hv.read ((w ++ (s ++ w')).length + 1) w' (by simp; omega) hfollow
  have hskip := skipWs_append hw (hv.noWs w')
  simp only [read, hskip, hread, hend]
  rfl

end JsonText
