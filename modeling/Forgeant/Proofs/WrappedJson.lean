import Forgeant.Structured
import Forgeant.Proofs.JsonRoundTrip

namespace Forgeant.Proofs.WrappedJson

open JsonText JsonRoundTrip

/-- An array or an object. -/
def IsContainer : Json → Prop
  | .array _ | .object _ => True
  | _ => False

/-- The leaves other than numbers. -/
def NoNumber (valid : Str → Prop) : Json → Prop
  | .null | .boolean _ => True
  | .string s => valid s
  | _ => False

def IsBracket (b : UInt8) : Prop := b = 0x5b ∨ b = 0x5d ∨ b = 0x7b ∨ b = 0x7d

theorem not_isWs_of_isBracket {b : UInt8} (h : IsBracket b) : isWs b = false := by
  rcases h with rfl | rfl | rfl | rfl <;> decide

theorem isBracket_of_container {b : UInt8} (h : b = 0x5b ∨ b = 0x7b) : IsBracket b := by
  rcases h with rfl | rfl
  · exact .inl rfl
  · exact .inr (.inr (.inl rfl))

/-- White space ends, and text without brackets ends, where the first bracket
stands. -/
theorem lead_unique {p w x y : Str} {b c : UInt8} (hp : ∀ a ∈ p, ¬ IsBracket a) (hw : Ws w)
    (hb : IsBracket b) (hc : IsBracket c) (h : p ++ b :: x = w ++ c :: y) : p = w := by
  rcases List.append_eq_append_iff.mp h with ⟨a, rfl, ha⟩ | ⟨a, rfl, ha⟩
  · cases a with
    | nil => simp
    | cons d a =>
      obtain ⟨rfl, _⟩ := List.cons.inj ha
      exact absurd (hw b (by simp)) (by simp [not_isWs_of_isBracket hb])
  · cases a with
    | nil => simp
    | cons d a =>
      obtain ⟨rfl, _⟩ := List.cons.inj ha
      exact absurd hc (hp c (by simp))

variable [Platform] {valid trailing : Str → Prop} {j : Json}

theorem dump_noNumber (ho : j.Ordered) (hl : j.Leaves (NoNumber valid) valid) :
    ∃ t, Value j.dump t ∧ t.Ordered ∧ t.StringsIn valid ∧ fromGeneric (.ofTree t) = j := by
  have hprint : j.Leaves (Printable valid) valid := by
    refine hl.and_imp ?_ (fun k hk _ => hk) hl
    intro l h _
    cases l with
    | number d => exact h.elim
    | string s => exact h
    | _ => trivial
  have hreread : j.reread = j := by
    rw [reread_eq_iff]
    refine hl.and_imp ?_ (fun _ _ _ => trivial) hl
    intro l h _
    cases l with
    | null => rfl
    | boolean b => rfl
    | string s => rfl
    | _ => exact h.elim
  obtain ⟨t, hv, hto, hts, hfrom⟩ := dump_read ho hprint
  exact ⟨t, hv, hto, hts, hfrom.trans hreread⟩

/-- Only the text of an array or an object is read as one. -/
theorem container_of_fromGeneric {t : JsonTree} (h : fromGeneric (.ofTree t) = j)
    (hj : IsContainer j) : t.IsContainer := by
  subst h
  cases t with
  | array elems => trivial
  | object members => trivial
  | number q =>
    rcases JsonLeaves.fromNumber_cases (Double.nearest q) with ⟨_, _, _, _, _, _, hd⟩ | hd
    · simp only [Generic.ofTree, fromGeneric, hd] at hj
      exact hj.elim
    · simp only [Generic.ofTree, fromGeneric, hd] at hj
      exact hj.elim
  | _ => exact hj.elim

theorem parse_padded (glaze : ReadsLeadingValue valid trailing) (hj : IsContainer j)
    (ho : j.Ordered) (hl : j.Leaves (NoNumber valid) valid) {p s : Str} (hp : Ws p)
    (hs : trailing s) : Json.parse (p ++ (j.dump ++ s)) = .ok j := by
  obtain ⟨t, hv, hto, hts, hfrom⟩ := dump_noNumber ho hl
  have ht := container_of_fromGeneric hfrom hj
  have hlongest : ∀ s' r' t', Value s' t' → s' ++ r' = j.dump ++ s →
      s'.length ≤ j.dump.length := by
    intro s' r' t' hv' heq
    rw [(hv.container_unique ht hv' heq.symm).1]
  have hread := glaze.reads p j.dump s t hp hv hlongest hto hts hs
  simp only [Json.parse, hread, hfrom]

/-- What is read as `j` starts, after white space, with an array or an object,
and the first bracket is where the text of `j` starts. -/
theorem wrapping_of_parse (glaze : ReadsLeadingValue valid trailing) (hj : IsContainer j)
    (ho : j.Ordered) (hl : j.Leaves (NoNumber valid) valid) {p s : Str}
    (hp : ∀ b ∈ p, ¬ IsBracket b) (h : Json.parse (p ++ (j.dump ++ s)) = .ok j) :
    Ws p ∧ trailing s := by
  obtain ⟨t, hv, _, _, hfrom⟩ := dump_noNumber ho hl
  have ht := container_of_fromGeneric hfrom hj
  unfold Json.parse at h
  cases hg : Platform.readJson (p ++ (j.dump ++ s)) with
  | error e => simp [hg] at h
  | ok g =>
    simp only [hg, Except.ok.injEq] at h
    obtain ⟨w, s', r, t', hw, hv', hr, htext, htree⟩ := glaze.accepts _ _ hg
    have ht' : t'.IsContainer := by
      cases t' with
      | array elems => trivial
      | object members => trivial
      | _ =>
        obtain rfl := htree trivial
        exact container_of_fromGeneric h hj
    obtain ⟨b, u, hb, hopen⟩ := hv.container_head ht
    obtain ⟨c, v, hc, hopen'⟩ := hv'.container_head ht'
    rw [hb, hc, List.cons_append, List.cons_append] at htext
    obtain rfl := lead_unique hp hw (isBracket_of_container hopen)
      (isBracket_of_container hopen') htext
    have hrest := List.append_cancel_left htext
    rw [← List.cons_append, ← List.cons_append, ← hb, ← hc] at hrest
    obtain ⟨_, _, rfl⟩ := hv.container_unique ht hv' hrest
    exact ⟨hw, hr⟩

/-- JSON is recovered from the text around it just when only white space comes
before it and the reader lets the rest follow. -/
theorem extract_wrapped_iff (glaze : ReadsLeadingValue valid trailing) (hj : IsContainer j)
    (ho : j.Ordered) (hl : j.Leaves (NoNumber valid) valid) {p s : Str}
    (hp : ∀ b ∈ p, ¬ IsBracket b) {response : LlmResponse}
    (htext : response.message.content.findSome? ContentBlock.text? =
      some (p ++ (j.dump ++ s))) :
    extractJsonFromResponse response = .ok j ↔ Ws p ∧ trailing s := by
  unfold extractJsonFromResponse
  rw [htext]
  constructor
  · exact wrapping_of_parse glaze hj ho hl hp
  · rintro ⟨hws, hs⟩
    exact parse_padded glaze hj ho hl hws hs

/-- A reply of one block of text. -/
def replying (text : Str) : LlmResponse := { message := .ofText .assistant text }

def verdict : Json := .object [(str "ok", .boolean true)]

omit [Platform] in
theorem verdict_ordered : verdict.Ordered := by
  refine ⟨?_, trivial, trivial⟩
  simp [Assoc.Ordered]

omit [Platform] in
theorem verdict_leaves : verdict.Leaves (NoNumber (fun _ => True)) (fun _ => True) :=
  ⟨trivial, trivial, trivial⟩

def preamble : Str := str "Here is the result: "

omit [Platform] in
theorem preamble_noBracket : ∀ b ∈ preamble, ¬ IsBracket b := by
  rintro b hb (rfl | rfl | rfl | rfl) <;> exact absurd hb (by decide)

omit [Platform] in
theorem extract_wrapped_iff_verdict :
    letI := Platform.reference
    extractJsonFromResponse (replying (preamble ++ (verdict.dump ++ []))) = .ok verdict ↔
      Ws preamble ∧ Ws [] := by
  let platform := Platform.reference
  exact extract_wrapped_iff (j := verdict) (Platform.reference_readsLeadingValue _) trivial
    verdict_ordered verdict_leaves preamble_noBracket rfl

omit [Platform] in
/-- A sentence before the JSON makes the reader fail. -/
theorem not_extract_wrapped : ¬ ∀ [Platform] (valid trailing : Str → Prop),
    ReadsLeadingValue valid trailing → ∀ j : Json, IsContainer j → j.Ordered →
    j.Leaves (NoNumber valid) valid → ∀ p s : Str, (∀ b ∈ p, ¬ IsBracket b) →
    (∀ b ∈ s, ¬ IsBracket b) → ∀ response : LlmResponse,
    response.message.content.findSome? ContentBlock.text? = some (p ++ (j.dump ++ s)) →
      extractJsonFromResponse response = .ok j := by
  intro h
  let platform := Platform.reference
  have glaze : ReadsLeadingValue (fun _ => True) Ws := Platform.reference_readsLeadingValue _
  have hread : Json.parse (preamble ++ (verdict.dump ++ [])) = .ok verdict :=
    @h platform _ _ glaze verdict trivial verdict_ordered verdict_leaves preamble []
      preamble_noBracket (by simp) (replying (preamble ++ (verdict.dump ++ []))) rfl
  obtain ⟨hws, _⟩ :=
    wrapping_of_parse (j := verdict) glaze trivial verdict_ordered verdict_leaves
      preamble_noBracket hread
  exact absurd (hws 0x48 (by decide)) (by decide)

end Forgeant.Proofs.WrappedJson
