import Forgeant.Json.Reference
import Forgeant.Proofs.JsonLeaves

namespace Forgeant.Proofs.JsonRoundTrip

open JsonText JsonLeaves

theorem hexDigits_control (n : Fin 32) :
    hex4 0x30 0x30 (hexDigit (UInt8.ofNat n / 16)) (hexDigit (UInt8.ofNat n % 16)) = some n.val ∧
      utf8 n = [UInt8.ofNat n] ∧ isHighSurrogate n = false ∧ isLowSurrogate n = false := by
  revert n
  decide

theorem writeChar_character (c : UInt8) : Character (writeChar c) [c] := by
  unfold writeChar
  split_ifs with h1 h2 h3 h4 h5 h6 h7 h8
  · subst h1; exact .escape rfl
  · subst h2; exact .escape rfl
  · subst h3; exact .escape rfl
  · subst h4; exact .escape rfl
  · subst h5; exact .escape rfl
  · subst h6; exact .escape rfl
  · subst h7; exact .escape rfl
  · have hlt : c.toNat < 32 := by simpa [UInt8.lt_iff_toNat_lt] using h8
    obtain ⟨hhex, hutf8, hhigh, hlow⟩ := hexDigits_control ⟨c.toNat, hlt⟩
    simp only [UInt8.ofNat_toNat] at hhex hutf8
    have := Character.unicode hhex hhigh hlow
    rwa [hutf8] at this
  · exact .plain (not_lt.mp h8) h1 h2

theorem characters_flatMap (s : Str) : Characters (s.flatMap writeChar) s := by
  induction s with
  | nil => exact .nil
  | cons c s ih => exact .cons (writeChar_character c) ih

theorem writeString_eq (s : Str) : writeString s = quoted (s.flatMap writeChar) := rfl

variable [Platform] {valid : Str → Prop}

/-- The leaves that print as JSON, with what their texts denote. -/
def Printable (valid : Str → Prop) : Json → Prop
  | .string s => valid s
  | .number d => ∃ n : JsonNumber, Platform.toChars d = n.text ∧ Double.nearest n.value = d
  | _ => True

omit [Platform] in
theorem ordered_of_keys {β γ : Type} {m : List (Str × β)} {m' : List (Str × γ)}
    (h : m.map Prod.fst = m'.map Prod.fst) : Assoc.Ordered m ↔ Assoc.Ordered m' := by
  rw [Assoc.ordered_iff_keys, Assoc.ordered_iff_keys, h]

theorem rereadMembers_keys (members : List (Str × Json)) :
    (Json.reread.rereadMembers members).map Prod.fst = members.map Prod.fst := by
  induction members with
  | nil => rfl
  | cons p ms ih => simp [Json.reread.rereadMembers, ih]

/-- The tree that the text of a value denotes, where the text of a double denotes
what `num` says. -/
def treeOf (num : Double → ℚ) : Json → JsonTree
  | .null => .null
  | .boolean b => .boolean b
  | .integer n => .number (JsonNumber.ofInt n.toInt).value
  | .number d => .number (num d)
  | .string s => .string s
  | .array elems => .array (treesOf elems)
  | .object members => .object (membersOf members)
where
  treesOf : List Json → List JsonTree
    | [] => []
    | e :: es => treeOf num e :: treesOf es
  membersOf : List (Str × Json) → List (Str × JsonTree)
    | [] => []
    | (k, v) :: ms => (k, treeOf num v) :: membersOf ms

/-- The leaf, if it is a double, has a text for what `num` says. -/
def Spelled (num : Double → ℚ) (l : Json) : Prop :=
  ∀ d, l = .number d → ∃ n : JsonNumber, Platform.toChars d = n.text ∧ n.value = num d

section

variable {num : Double → ℚ}

mutual

theorem dump_value (j : Json) (h : j.Leaves (Spelled num) (fun _ => True)) :
    Value j.dump (treeOf num j) := by
  cases j with
  | null => exact .null
  | boolean b => exact .boolean b
  | integer n =>
    simpa [Json.dump, treeOf, JsonNumber.ofInt_text] using
      Value.number (JsonNumber.ofInt n.toInt)
  | number d =>
    obtain ⟨n, htext, hval⟩ := h d rfl
    rw [Json.dump, htext, treeOf, ← hval]
    exact .number n
  | string s => exact .string (characters_flatMap s)
  | array elems => exact .array (dumpElems_elements elems h)
  | object members => exact .object (dumpMembers_members members h)

theorem dumpElems_elements (elems : List Json)
    (h : Json.Leaves.leavesElems (Spelled num) (fun _ => True) elems) :
    Elements (Json.dump.dumpElems true elems) (treeOf.treesOf num elems) := by
  cases elems with
  | nil => exact .nil .nil
  | cons e es =>
    simpa [Json.dump.dumpElems, treeOf.treesOf] using
      Elements.cons .nil (dump_value e h.1) .nil (dumpElems_more es h.2)

theorem dumpElems_more (elems : List Json)
    (h : Json.Leaves.leavesElems (Spelled num) (fun _ => True) elems) :
    MoreElements (Json.dump.dumpElems false elems) (treeOf.treesOf num elems) := by
  cases elems with
  | nil => exact .nil
  | cons e es =>
    simpa [Json.dump.dumpElems, treeOf.treesOf, str, String.utf8EncodeChar] using
      MoreElements.cons .nil (dump_value e h.1) .nil (dumpElems_more es h.2)

theorem dumpMembers_members (members : List (Str × Json))
    (h : Json.Leaves.leavesMembers (Spelled num) (fun _ => True) members) :
    Members (Json.dump.dumpMembers true members) (treeOf.membersOf num members) := by
  cases members with
  | nil => exact .nil .nil
  | cons p ms =>
    obtain ⟨k, v⟩ := p
    simpa [Json.dump.dumpMembers, treeOf.membersOf, writeString_eq, str,
      String.utf8EncodeChar] using
      Members.cons .nil (characters_flatMap k) .nil .nil (dump_value v h.2.1) .nil
        (dumpMembers_more ms h.2.2)

theorem dumpMembers_more (members : List (Str × Json))
    (h : Json.Leaves.leavesMembers (Spelled num) (fun _ => True) members) :
    MoreMembers (Json.dump.dumpMembers false members) (treeOf.membersOf num members) := by
  cases members with
  | nil => exact .nil
  | cons p ms =>
    obtain ⟨k, v⟩ := p
    simpa [Json.dump.dumpMembers, treeOf.membersOf, writeString_eq, str,
      String.utf8EncodeChar] using
      MoreMembers.cons .nil (characters_flatMap k) .nil .nil (dump_value v h.2.1) .nil
        (dumpMembers_more ms h.2.2)

end

/-- The leaf is read from its text: a string is valid, and of a double the text
denotes it. -/
def ReadFrom (num : Double → ℚ) (valid : Str → Prop) : Json → Prop
  | .string s => valid s
  | .number d => Double.nearest (num d) = d
  | _ => True

omit [Platform] in
theorem membersOf_keys (members : List (Str × Json)) :
    (treeOf.membersOf num members).map Prod.fst = members.map Prod.fst := by
  induction members with
  | nil => rfl
  | cons p ms ih => simp [treeOf.membersOf, ih]

mutual

/-- Reading the tree gives the value reread. -/
theorem treeOf_read (j : Json) (ho : j.Ordered) (hl : j.Leaves (ReadFrom num valid) valid) :
    (treeOf num j).Ordered ∧ (treeOf num j).StringsIn valid ∧
      fromGeneric (.ofTree (treeOf num j)) = j.reread := by
  cases j with
  | null => exact ⟨trivial, trivial, rfl⟩
  | boolean b => exact ⟨trivial, trivial, rfl⟩
  | integer n =>
    refine ⟨trivial, trivial, ?_⟩
    simp [treeOf, Generic.ofTree, fromGeneric, Json.reread, JsonNumber.ofInt_value, castDouble]
  | number d =>
    refine ⟨trivial, trivial, ?_⟩
    have hval : Double.nearest (num d) = d := hl
    simp [treeOf, Generic.ofTree, fromGeneric, Json.reread, hval]
  | string s => exact ⟨trivial, hl, rfl⟩
  | array elems =>
    obtain ⟨hto, hts, hre⟩ := treesOf_read elems ho hl
    exact ⟨hto, hts, by simp [treeOf, Generic.ofTree, fromGeneric, Json.reread, hre]⟩
  | object members =>
    obtain ⟨hto, hts, hre⟩ := membersOf_read members ho.2 hl
    refine ⟨⟨(ordered_of_keys (membersOf_keys members)).mpr ho.1, hto⟩, hts, ?_⟩
    have hmap : Assoc.Ordered (Json.reread.rereadMembers members) :=
      (ordered_of_keys (rereadMembers_keys members)).mpr ho.1
    simp [treeOf, Generic.ofTree, fromGeneric, Json.reread, hre, Assoc.ofList_ordered hmap]

theorem treesOf_read (elems : List Json) (ho : Json.Ordered.orderedElems elems)
    (hl : Json.Leaves.leavesElems (ReadFrom num valid) valid elems) :
    JsonTree.Ordered.orderedElems (treeOf.treesOf num elems) ∧
      JsonTree.StringsIn.elemsIn valid (treeOf.treesOf num elems) ∧
      fromGeneric.fromElems (Generic.ofTree.ofElems (treeOf.treesOf num elems)) =
        Json.reread.rereadElems elems := by
  cases elems with
  | nil => exact ⟨trivial, trivial, rfl⟩
  | cons e es =>
    obtain ⟨hto, hts, hre⟩ := treeOf_read e ho.1 hl.1
    obtain ⟨hto', hts', hre'⟩ := treesOf_read es ho.2 hl.2
    refine ⟨⟨hto, hto'⟩, ⟨hts, hts'⟩, ?_⟩
    simp [treeOf.treesOf, Generic.ofTree.ofElems, fromGeneric.fromElems, Json.reread.rereadElems,
      hre, hre']

theorem membersOf_read (members : List (Str × Json)) (ho : Json.Ordered.orderedMembers members)
    (hl : Json.Leaves.leavesMembers (ReadFrom num valid) valid members) :
    JsonTree.Ordered.orderedMembers (treeOf.membersOf num members) ∧
      JsonTree.StringsIn.membersIn valid (treeOf.membersOf num members) ∧
      fromGeneric.fromMembers (Generic.ofTree.ofMembers (treeOf.membersOf num members)) =
        Json.reread.rereadMembers members := by
  cases members with
  | nil => exact ⟨trivial, trivial, rfl⟩
  | cons p ms =>
    obtain ⟨k, v⟩ := p
    obtain ⟨hto, hts, hre⟩ := treeOf_read v ho.1 hl.2.1
    obtain ⟨hto', hts', hre'⟩ := membersOf_read ms ho.2 hl.2.2
    refine ⟨⟨hto, hto'⟩, ⟨hl.1, hts, hts'⟩, ?_⟩
    simp [treeOf.membersOf, Generic.ofTree.ofMembers, fromGeneric.fromMembers,
      Json.reread.rereadMembers, hre, hre']

end

end

/-- The text of a value denotes a tree that reading turns into the value reread. -/
theorem dump_read {j : Json} (ho : j.Ordered) (hl : j.Leaves (Printable valid) valid) :
    ∃ t, Value j.dump t ∧ t.Ordered ∧ t.StringsIn valid ∧
      fromGeneric (.ofTree t) = j.reread := by
  obtain ⟨num, hnum⟩ : ∃ num : Double → ℚ, ∀ d, Printable valid (.number d) →
      ∃ n : JsonNumber, Platform.toChars d = n.text ∧ n.value = num d ∧
        Double.nearest (num d) = d := by
    classical
    refine ⟨fun d => if h : Printable valid (.number d) then h.choose.value else 0, ?_⟩
    intro d hd
    simp only [dif_pos hd]
    exact ⟨hd.choose, hd.choose_spec.1, rfl, hd.choose_spec.2⟩
  have hspelled : j.Leaves (Spelled num) (fun _ => True) := by
    refine hl.and_imp ?_ (fun _ _ _ => trivial) hl
    rintro _ h _ d rfl
    obtain ⟨n, htext, hval, _⟩ := hnum d h
    exact ⟨n, htext, hval⟩
  have hread : j.Leaves (ReadFrom num valid) valid := by
    refine hl.and_imp ?_ (fun _ hk _ => hk) hl
    intro l h _
    cases l with
    | number d =>
      obtain ⟨_, _, _, hnearest⟩ := hnum d h
      exact hnearest
    | string s => exact h
    | _ => trivial
  exact ⟨_, dump_value j hspelled, treeOf_read j ho hread⟩

/-- Printing a value and reading the text back gives the value reread. -/
theorem parse_dump {j : Json} (glaze : ReadsTexts valid) (ho : j.Ordered)
    (hl : j.Leaves (Printable valid) valid) : Json.parse j.dump = .ok j.reread := by
  obtain ⟨t, hv, hto, hts, hre⟩ := dump_read ho hl
  simp [Json.parse, glaze _ t hv.denotes hto hts, hre]

mutual

/-- Rereading leaves a value as it is when it leaves each leaf as it is. -/
theorem reread_eq_iff (j : Json) :
    j.reread = j ↔ j.Leaves (fun l => l.reread = l) (fun _ => True) := by
  cases j with
  | array elems => simpa [Json.reread, Json.Leaves] using rereadElems_eq_iff elems
  | object members => simpa [Json.reread, Json.Leaves] using rereadMembers_eq_iff members
  | _ => rfl

theorem rereadElems_eq_iff (elems : List Json) :
    Json.reread.rereadElems elems = elems ↔
      Json.Leaves.leavesElems (fun l => l.reread = l) (fun _ => True) elems := by
  cases elems with
  | nil => simp [Json.reread.rereadElems, Json.Leaves.leavesElems]
  | cons e es =>
    simp [Json.reread.rereadElems, Json.Leaves.leavesElems, reread_eq_iff e, rereadElems_eq_iff es]

theorem rereadMembers_eq_iff (members : List (Str × Json)) :
    Json.reread.rereadMembers members = members ↔
      Json.Leaves.leavesMembers (fun l => l.reread = l) (fun _ => True) members := by
  cases members with
  | nil => simp [Json.reread.rereadMembers, Json.Leaves.leavesMembers]
  | cons p ms =>
    obtain ⟨k, v⟩ := p
    simp [Json.reread.rereadMembers, Json.Leaves.leavesMembers, reread_eq_iff v,
      rereadMembers_eq_iff ms]

end

/-- The leaves other than `number_t`. -/
def PlainLeaf : Json → Prop
  | .null | .boolean _ | .integer _ => True
  | .string s => s.IsUtf8
  | _ => False

/-- Such a value comes back from its text exactly when each of its integers
comes back from a double. -/
theorem parse_dump_iff (glaze : ReadsTexts Str.IsUtf8) {j : Json} (ho : j.Ordered)
    (hl : j.Leaves PlainLeaf Str.IsUtf8) :
    Json.parse j.dump = .ok j ↔
      j.Leaves (fun l => ∀ n, l = .integer n → Exact n) (fun _ => True) := by
  have hprint : j.Leaves (Printable Str.IsUtf8) Str.IsUtf8 := by
    refine hl.and_imp ?_ (fun k hk _ => hk) hl
    intro l h _
    cases l with
    | string s => exact h
    | number d => exact h.elim
    | _ => trivial
  rw [parse_dump glaze ho hprint, Except.ok.injEq, reread_eq_iff]
  constructor
  · intro h
    refine h.and_imp ?_ (fun _ _ _ => trivial) h
    rintro _ hn _ n rfl
    exact (fromNumber_castDouble n).mp hn
  · intro h
    refine hl.and_imp ?_ (fun _ _ _ => trivial) h
    intro l hw hn
    cases l with
    | integer n => exact (fromNumber_castDouble n).mpr (hn n rfl)
    | number d => exact hw.elim
    | array elems => exact hw.elim
    | object members => exact hw.elim
    | _ => rfl

omit [Platform] in
/-- The first integer that is no double comes back as its neighbour. -/
theorem not_parse_dump : ¬ ∀ (platform : Platform), @ReadsTexts platform Str.IsUtf8 →
    ∀ j : Json, j.Ordered → j.Leaves PlainLeaf Str.IsUtf8 →
      @Json.parse platform (@Json.dump platform j) = .ok j := by
  intro h
  let platform := Platform.reference
  have glaze : ReadsTexts Str.IsUtf8 := Platform.reference_readsTexts _
  have hround := h platform glaze (.integer 9007199254740993) trivial trivial
  have hcast : castDouble 9007199254740993 = castDouble 9007199254740992 := by decide +kernel
  have hexact : Exact 9007199254740992 := .inl (Representable.intCast (by decide))
  have hread := (fromNumber_castDouble _).mpr hexact
  have ho : (Json.integer 9007199254740993).Ordered := trivial
  have hl : (Json.integer 9007199254740993).Leaves (Printable Str.IsUtf8) Str.IsUtf8 := trivial
  rw [parse_dump glaze ho hl] at hround
  simp only [Json.reread, hcast, hread, Except.ok.injEq, Json.integer.injEq] at hround
  exact absurd hround (by decide)

def sampleObject : Json :=
  .object [(str "count", .integer 7), (str "names", .array [.string (str "a"), .null])]

omit [Platform] in
theorem parse_dump_sampleObject :
    @Json.parse .reference (@Json.dump .reference sampleObject) = .ok sampleObject := by
  let platform := Platform.reference
  have ho : sampleObject.Ordered := by
    refine ⟨?_, trivial, ⟨trivial, trivial, trivial⟩, trivial⟩
    simp only [Assoc.Ordered, List.pairwise_cons]
    decide
  have hl : sampleObject.Leaves PlainLeaf Str.IsUtf8 :=
    ⟨⟨"count".toList, rfl⟩, trivial, ⟨"names".toList, rfl⟩,
      ⟨⟨"a".toList, rfl⟩, trivial, trivial⟩, trivial⟩
  apply (parse_dump_iff (Platform.reference_readsTexts _) ho hl).mpr
  refine ⟨trivial, ?_, trivial, ⟨?_, ?_, trivial⟩, trivial⟩
  · intro n hn
    cases hn
    exact .inl (Representable.intCast (by decide))
  · intro n hn
    cases hn
  · intro n hn
    cases hn

mutual

theorem fromGeneric_ordered (g : Generic) : (fromGeneric g).Ordered := by
  cases g with
  | number d =>
    unfold fromGeneric fromNumber
    split <;> trivial
  | array elems => exact fromElems_ordered elems
  | object members =>
    refine ⟨Assoc.ordered_ofList _, (Json.Ordered.orderedMembers_iff _).mpr ?_⟩
    intro e he
    exact fromMembers_ordered members e (Assoc.ofList_mem he)
  | _ => trivial

theorem fromElems_ordered (elems : List Generic) :
    Json.Ordered.orderedElems (fromGeneric.fromElems elems) := by
  cases elems with
  | nil => trivial
  | cons e es => exact ⟨fromGeneric_ordered e, fromElems_ordered es⟩

theorem fromMembers_ordered (members : List (Str × Generic)) :
    ∀ e ∈ fromGeneric.fromMembers members, e.2.Ordered := by
  cases members with
  | nil => simp [fromGeneric.fromMembers]
  | cons p ms =>
    intro e he
    rcases List.mem_cons.mp he with rfl | he
    · exact fromGeneric_ordered p.2
    · exact fromMembers_ordered ms e he

end

/-- A leaf that reading yields: it is stable, and its strings are valid. -/
def Settled (valid : Str → Prop) (l : Json) : Prop := l.reread = l ∧ ∀ s, l = .string s → valid s

theorem fromNumber_settled (cast : SaturatesCasts) (d : Double) :
    (fromNumber d).Leaves (Settled valid) valid := by
  cases h : fromNumber d with
  | integer n =>
    exact ⟨(fromNumber_castDouble n).mpr (exact_of_fromNumber cast h), by simp⟩
  | number d' => exact ⟨fromNumber_number h, by simp⟩
  | _ => rcases fromNumber_cases d with ⟨_, _, _, _, _, _, hd⟩ | hd <;> simp [hd] at h

mutual

theorem fromGeneric_settled (cast : SaturatesCasts) (g : Generic) (hg : g.StringsIn valid) :
    (fromGeneric g).Leaves (Settled valid) valid := by
  cases g with
  | null => exact ⟨rfl, by rintro _ ⟨⟩⟩
  | boolean b => exact ⟨rfl, by rintro _ ⟨⟩⟩
  | number d => exact fromNumber_settled cast d
  | string s => exact ⟨rfl, by rintro _ ⟨⟩; exact hg⟩
  | array elems => exact fromElems_settled cast elems hg
  | object members =>
    apply (Json.Leaves.leavesMembers_iff _).mpr
    intro e he
    exact fromMembers_settled cast members hg e (Assoc.ofList_mem he)

theorem fromElems_settled (cast : SaturatesCasts) (elems : List Generic)
    (hg : Generic.StringsIn.elemsIn valid elems) :
    Json.Leaves.leavesElems (Settled valid) valid (fromGeneric.fromElems elems) := by
  cases elems with
  | nil => trivial
  | cons e es => exact ⟨fromGeneric_settled cast e hg.1, fromElems_settled cast es hg.2⟩

theorem fromMembers_settled (cast : SaturatesCasts) (members : List (Str × Generic))
    (hg : Generic.StringsIn.membersIn valid members) :
    ∀ e ∈ fromGeneric.fromMembers members, valid e.1 ∧ e.2.Leaves (Settled valid) valid := by
  cases members with
  | nil => simp [fromGeneric.fromMembers]
  | cons p ms =>
    intro e he
    rcases List.mem_cons.mp he with rfl | he
    · exact ⟨hg.1, fromGeneric_settled cast p.2 hg.2.1⟩
    · exact fromMembers_settled cast ms hg.2.2 e he

end

/-- What a text was read as is ordered, and rereading leaves it as it is. -/
theorem parse_settled (cast : SaturatesCasts) {s : Str} {j : Json} (hs : Json.parse s = .ok j) :
    j.Ordered ∧ j.reread = j := by
  unfold Json.parse at hs
  cases hg : Platform.readJson s with
  | error e => simp [hg] at hs
  | ok g =>
    simp only [hg, Except.ok.injEq] at hs
    subst hs
    refine ⟨fromGeneric_ordered g, ?_⟩
    rw [reread_eq_iff]
    have hsettled := fromGeneric_settled cast g g.stringsIn_true
    exact hsettled.and_imp (fun l hl _ => hl.1) (fun _ _ _ => trivial) hsettled

/-- The leaves that print as text that can be read: finite numbers and valid
strings. -/
def Legible (valid : Str → Prop) (l : Json) : Prop :=
  (∀ d, l = .number d → d.isFinite = true) ∧ ∀ s, l = .string s → valid s

theorem parse_dump_reread (glaze : ReadsTexts valid) (prints : PrintsDoubles) {j : Json}
    (ho : j.Ordered) (hreread : j.reread = j) (legible : j.Leaves (Legible valid) valid) :
    Json.parse j.dump = .ok j := by
  have hprint : j.Leaves (Printable valid) valid := by
    refine legible.and_imp ?_ (fun k hk _ => hk) legible
    intro l hl _
    cases l with
    | number d =>
      cases d with
      | finite x => exact prints x
      | _ => simpa [Double.isFinite] using hl.1 _ rfl
    | string t => exact hl.2 t rfl
    | _ => trivial
  rw [parse_dump glaze ho hprint, hreread]

@[simp] theorem lasting_string {s : Str} : (Json.string s).Lasting valid ↔ valid s := by
  constructor
  · intro h
    exact h.leaves.strings s rfl
  · intro h
    exact ⟨trivial, rfl, by simp, by simpa using h⟩

@[simp] theorem lasting_null : Json.null.Lasting valid := ⟨trivial, rfl, by simp, by simp⟩

@[simp] theorem lasting_boolean (b : Bool) : (Json.boolean b).Lasting valid :=
  ⟨trivial, rfl, by simp, by simp⟩

@[simp] theorem lasting_integer (n : Int32) : (Json.integer n.toInt64).Lasting valid := by
  refine ⟨trivial, ?_, by simp, by simp⟩
  apply (fromNumber_castDouble _).mpr
  left
  apply Representable.intCast
  have := n.le_toInt
  have := n.toInt_lt
  rw [Int32.toInt_toInt64, abs_le]
  omega

@[simp] theorem lasting_array {elems : List Json} :
    (Json.array elems).Lasting valid ↔ ∀ e ∈ elems, e.Lasting valid := by
  simp only [Json.lasting_iff, Json.Ordered, Json.Leaves, Json.Ordered.orderedElems_iff,
    Json.Leaves.leavesElems_iff, ← forall_and]

@[simp] theorem lasting_object {members : List (Str × Json)} :
    (Json.object members).Lasting valid ↔
      Assoc.Ordered members ∧ ∀ e ∈ members, valid e.1 ∧ e.2.Lasting valid := by
  simp only [Json.lasting_iff, Json.Ordered, Json.Leaves, Json.Ordered.orderedMembers_iff,
    Json.Leaves.leavesMembers_iff, and_assoc, ← forall_and, and_left_comm]

@[simp] theorem lasting_objectOf {entries : List (Str × Json)}
    (h : ∀ e ∈ entries, valid e.1 ∧ e.2.Lasting valid) : (Json.objectOf entries).Lasting valid :=
  lasting_object.mpr ⟨Assoc.ordered_ofList _, fun e he => h e (Assoc.ofList_mem he)⟩

theorem parse_lasting (glaze : ReadsTexts valid) (prints : PrintsDoubles) {j : Json}
    (h : j.Lasting valid) : Json.parse j.dump = .ok j := by
  have hreread : j.reread = j := by
    rw [reread_eq_iff]
    exact h.leaves.and_imp (fun l hl _ => hl.reread) (fun _ _ _ => trivial) h.leaves
  have hlegible : j.Leaves (Legible valid) valid :=
    h.leaves.and_imp (fun l hl _ => ⟨hl.finite, hl.strings⟩) (fun k hk _ => hk) h.leaves
  exact parse_dump_reread glaze prints h.ordered hreread hlegible

omit [Platform] in
theorem parse_utf8 {j : Json} (h : @Json.Lasting .utf8 Str.IsUtf8 j) :
    @Json.parse .utf8 (@Json.dump .utf8 j) = .ok j :=
  letI := Platform.utf8
  parse_lasting Platform.utf8_readsTexts Platform.utf8_printsDoubles h

/-- What reading a text gave is what printing and reading it again gives. -/
theorem parse_dump_parse (valid : Str → Prop) (glaze : ReadsTexts valid)
    (yields : YieldsStrings valid) (prints : PrintsDoubles) (cast : SaturatesCasts) {s : Str}
    {j : Json} (hs : Json.parse s = .ok j)
    (finite : j.Finite) : Json.parse j.dump = .ok j := by
  obtain ⟨ho, hreread⟩ := parse_settled cast hs
  unfold Json.parse at hs
  cases hg : Platform.readJson s with
  | error e => simp [hg] at hs
  | ok g =>
    simp only [hg, Except.ok.injEq] at hs
    subst hs
    have hsettled := fromGeneric_settled cast g (yields s g hg)
    have legible : (fromGeneric g).Leaves (Legible valid) valid :=
      hsettled.and_imp (fun l hl hfin => ⟨hfin, hl.2⟩) (fun k hk _ => hk) finite
    exact parse_dump_reread glaze prints ho hreread legible

omit [Platform] in
theorem digits_singleton {b : UInt8} (h : Str.isDigit b = true) : JsonNumber.Digits [b] := by
  refine ⟨by simp, ?_⟩
  intro c hc
  cases List.mem_singleton.mp hc
  exact h

def half : FiniteDouble :=
  ⟨1 / 2, ⟨1, -1, by norm_num, by norm_num, by norm_num, by norm_num⟩⟩

omit [Platform] in
/-- `-7.0` is read as an integer, `5e-1` as a double. -/
theorem parse_sampleText : @Json.parse .reference (str "[ 5e-1,-7.0 ]") =
    .ok (.array [.number (.finite half), .integer (-7)]) := by
  let platform := Platform.reference
  let five : JsonNumber :=
    { negative := false, int := [0x35], frac := none
      exp := some ⟨false, some true, [0x31], digits_singleton rfl⟩
      intDigits := digits_singleton rfl, noLeadingZero := by simp, fracDigits := by simp }
  let seven : JsonNumber :=
    { negative := true, int := [0x37], frac := some [0x30], exp := none
      intDigits := digits_singleton rfl, noLeadingZero := by simp
      fracDigits := by
        intro f hf
        cases hf
        exact digits_singleton rfl }
  have hfive : Double.nearest five.value = .finite half := by decide +kernel
  have hseven : Double.nearest seven.value = castDouble (-7) := by decide +kernel
  have hw : Ws [0x20] := by simp [Ws, isWs]
  have hv := Value.array (.cons hw (.number five) .nil (.cons .nil (.number seven) hw .nil))
  have htext : str "[ 5e-1,-7.0 ]" = 0x5b :: ([0x20] ++ (five.text ++ ([] ++
      0x2c :: ([] ++ (seven.text ++ ([0x20] ++ []))))) ++ [0x5d]) := by decide +kernel
  have hread := Platform.reference_readsTexts (fun _ => True) _ _ hv.denotes
    ⟨trivial, trivial, trivial⟩ ⟨trivial, trivial, trivial⟩
  have hhalf : fromNumber (.finite half) = .number (.finite half) := by
    unfold fromNumber
    rw [if_neg (by decide +kernel)]
  have hwhole := (fromNumber_castDouble (-7)).mpr (.inl (Representable.intCast (by decide)))
  rw [htext, Json.parse, hread]
  simp [Generic.ofTree, Generic.ofTree.ofElems, fromGeneric, fromGeneric.fromElems, hfive, hseven,
    hhalf, hwhole]

omit [Platform] in
theorem parse_dump_sampleText :
    @Json.parse .reference
        (@Json.dump .reference (.array [.number (.finite half), .integer (-7)])) =
      .ok (.array [.number (.finite half), .integer (-7)]) := by
  let platform := Platform.reference
  refine parse_dump_parse (fun _ => True) (Platform.reference_readsTexts _)
    Platform.reference_yieldsStrings Platform.reference_printsDoubles
    Platform.reference_saturatesCasts parse_sampleText ⟨?_, ?_, trivial⟩
  · intro d hd
    cases hd
    rfl
  · intro d hd
    cases hd

end Forgeant.Proofs.JsonRoundTrip
