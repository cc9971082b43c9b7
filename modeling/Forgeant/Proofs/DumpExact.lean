import Forgeant.Proofs.JsonRoundTrip

namespace Forgeant.Proofs.DumpExact
open JsonText JsonRoundTrip

def ofTree? : JsonTree → Option Json
  | .null => some .null
  | .boolean b => some (.boolean b)
  | .number q =>
    if q = (Int64.ofInt q.num).toInt then some (.integer (Int64.ofInt q.num)) else none
  | .string s => some (.string s)
  | .array elems => (ofElems? elems).map .array
  | .object members => (ofMembers? members).map .object
where
  ofElems? : List JsonTree → Option (List Json)
    | [] => some []
    | e :: es => (ofTree? e).bind (fun j => (ofElems? es).map (fun js => j :: js))
  ofMembers? : List (Str × JsonTree) → Option (List (Str × Json))
    | [] => some []
    | (k, v) :: ms => (ofTree? v).bind (fun j => (ofMembers? ms).map (fun js => (k, j) :: js))

def readExact (text : Str) : Option Json := (JsonText.read text).bind ofTree?

def FloatFree (j : Json) : Prop := j.Leaves (fun l => ∀ d, l ≠ .number d) (fun _ => True)

/-- No byte of the text is a control character. -/
def NoControl (s : Str) : Prop := ∀ b ∈ s, 0x20 ≤ b

theorem NoControl.nil : NoControl [] := by simp [NoControl]

theorem noControl_of_all {s : Str} (h : s.all (0x20 ≤ ·) = true) : NoControl s := by
  intro b hb
  exact of_decide_eq_true (List.all_eq_true.mp h b hb)

theorem noControl_append {s t : Str} : NoControl (s ++ t) ↔ NoControl s ∧ NoControl t := by
  simp only [NoControl, List.mem_append, or_imp, forall_and]

theorem hexDigit_noControl (n : Fin 32) :
    0x20 ≤ hexDigit (UInt8.ofNat n / 16) ∧ 0x20 ≤ hexDigit (UInt8.ofNat n % 16) := by
  revert n
  decide

theorem writeChar_noControl (c : UInt8) : NoControl (writeChar c) := by
  unfold writeChar
  split_ifs with _ _ _ _ _ _ _ h
  · exact noControl_of_all rfl
  · exact noControl_of_all rfl
  · exact noControl_of_all rfl
  · exact noControl_of_all rfl
  · exact noControl_of_all rfl
  · exact noControl_of_all rfl
  · exact noControl_of_all rfl
  · have hlt : c.toNat < 32 := by simpa [UInt8.lt_iff_toNat_lt] using h
    obtain ⟨hhi, hlo⟩ := hexDigit_noControl ⟨c.toNat, hlt⟩
    simp only [UInt8.ofNat_toNat] at hhi hlo
    apply noControl_append.mpr
    refine ⟨noControl_of_all rfl, ?_⟩
    simp [NoControl, hhi, hlo]
  · simpa [NoControl] using h

theorem writeString_noControl (s : Str) : NoControl (writeString s) := by
  unfold writeString
  simp only [noControl_append]
  refine ⟨⟨noControl_of_all rfl, ?_⟩, noControl_of_all rfl⟩
  intro b hb
  obtain ⟨c, _, hbc⟩ := List.mem_flatMap.mp hb
  exact writeChar_noControl c b hbc

theorem ofInt_noControl (z : Int) : NoControl (Str.ofInt z) := by
  have hdigits : NoControl (Str.ofNat z.natAbs) := by
    intro b hb
    have := (Str.isDigit_iff b).mp (Str.ofNat_isDigit _ b hb)
    simp only [UInt8.le_iff_toNat_le]
    have h20 : (0x20 : UInt8).toNat = 0x20 := rfl
    omega
  unfold Str.ofInt
  split
  · apply noControl_append (s := [0x2d]).mpr
    exact ⟨noControl_of_all rfl, hdigits⟩
  · exact hdigits

mutual

theorem ofTree?_treeOf (j : Json) (h : FloatFree j) : ofTree? (treeOf (fun _ => 0) j) = some j := by
  cases j with
  | integer n => simp [treeOf, ofTree?, JsonNumber.ofInt_value]
  | number d => exact absurd rfl (h d)
  | array elems => simp [treeOf, ofTree?, ofElems?_treesOf elems h]
  | object members => simp [treeOf, ofTree?, ofMembers?_membersOf members h]
  | _ => rfl

theorem ofElems?_treesOf (elems : List Json)
    (h : Json.Leaves.leavesElems (fun l => ∀ d, l ≠ .number d) (fun _ => True) elems) :
    ofTree?.ofElems? (treeOf.treesOf (fun _ => 0) elems) = some elems := by
  cases elems with
  | nil => rfl
  | cons e es =>
    simp [treeOf.treesOf, ofTree?.ofElems?, ofTree?_treeOf e h.1, ofElems?_treesOf es h.2]

theorem ofMembers?_membersOf (members : List (Str × Json))
    (h : Json.Leaves.leavesMembers (fun l => ∀ d, l ≠ .number d) (fun _ => True) members) :
    ofTree?.ofMembers? (treeOf.membersOf (fun _ => 0) members) = some members := by
  cases members with
  | nil => rfl
  | cons p ms =>
    obtain ⟨k, v⟩ := p
    simp [treeOf.membersOf, ofTree?.ofMembers?, ofTree?_treeOf v h.2.1,
      ofMembers?_membersOf ms h.2.2]

end

section

variable [Platform]

theorem dump_exact {j : Json} (h : FloatFree j) : Value j.dump (treeOf (fun _ => 0) j) := by
  apply dump_value
  refine h.and_imp ?_ (fun _ _ _ => trivial) h
  intro l hl _ d hd
  exact absurd hd (hl d)

mutual

theorem dump_noControl (j : Json) (h : FloatFree j) : NoControl j.dump := by
  cases j with
  | null => exact noControl_of_all rfl
  | boolean b => cases b <;> exact noControl_of_all rfl
  | integer n => exact ofInt_noControl n.toInt
  | number d => exact absurd rfl (h d)
  | string s => exact writeString_noControl s
  | array elems =>
    simp only [Json.dump, noControl_append]
    exact ⟨⟨noControl_of_all rfl, dumpElems_noControl true elems h⟩, noControl_of_all rfl⟩
  | object members =>
    simp only [Json.dump, noControl_append]
    exact ⟨⟨noControl_of_all rfl, dumpMembers_noControl true members h⟩, noControl_of_all rfl⟩

theorem dumpElems_noControl (first : Bool) (elems : List Json)
    (h : Json.Leaves.leavesElems (fun l => ∀ d, l ≠ .number d) (fun _ => True) elems) :
    NoControl (Json.dump.dumpElems first elems) := by
  cases elems with
  | nil => exact .nil
  | cons e es =>
    simp only [Json.dump.dumpElems, noControl_append]
    refine ⟨⟨?_, dump_noControl e h.1⟩, dumpElems_noControl false es h.2⟩
    cases first <;> exact noControl_of_all rfl

theorem dumpMembers_noControl (first : Bool) (members : List (Str × Json))
    (h : Json.Leaves.leavesMembers (fun l => ∀ d, l ≠ .number d) (fun _ => True) members) :
    NoControl (Json.dump.dumpMembers first members) := by
  cases members with
  | nil => exact .nil
  | cons p ms =>
    obtain ⟨k, v⟩ := p
    simp only [Json.dump.dumpMembers, noControl_append]
    refine ⟨⟨⟨⟨?_, writeString_noControl k⟩, noControl_of_all rfl⟩, dump_noControl v h.2.1⟩,
      dumpMembers_noControl false ms h.2.2⟩
    cases first <;> exact noControl_of_all rfl

end

theorem readExact_dump {j : Json} (h : FloatFree j) : readExact j.dump = some j := by
  rw [readExact, read_complete (dump_exact h).denotes, Option.bind_some, ofTree?_treeOf j h]

/-- The text of a value without `number_t` leaves is a JSON text, tells the
value apart from all others and shows no control character. -/
theorem dump_unambiguous (j : Json) (h : FloatFree j) :
    (∃ t, Denotes j.dump t) ∧ readExact j.dump = some j ∧
      (∀ i, FloatFree i → i.dump = j.dump → i = j) ∧ NoControl j.dump := by
  refine ⟨⟨_, (dump_exact h).denotes⟩, readExact_dump h, ?_, dump_noControl j h⟩
  intro i hi hdump
  have hread := readExact_dump hi
  rw [hdump, readExact_dump h] at hread
  exact (Option.some.inj hread).symm

end

/-- A key with a quote, a string with a line feed and a byte of no ASCII
character, and the lowest integer. -/
def sampleValue : Json :=
  .array [.object [(str "a\"b", .string [0x0a, 0xff, 0x00])], .integer Int64.minValue]

theorem dump_unambiguous_sampleValue :
    @readExact (@Json.dump .reference sampleValue) = some sampleValue ∧
      NoControl (@Json.dump .reference sampleValue) := by
  let platform := Platform.reference
  have h : FloatFree sampleValue := by
    refine ⟨⟨trivial, ?_, trivial⟩, ?_, trivial⟩
    · intro d hd
      cases hd
    · intro d hd
      cases hd
  obtain ⟨_, hread, _, hclean⟩ := dump_unambiguous sampleValue h
  exact ⟨hread, hclean⟩

end Forgeant.Proofs.DumpExact
