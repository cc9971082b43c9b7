import Forgeant.Json.Text
import Forgeant.Library.JsonText

namespace Forgeant

/-- The tree of a text as `glz::generic` holds it. -/
def Generic.ofTree : JsonTree → Generic
  | .null => .null
  | .boolean b => .boolean b
  | .number q => .number (Double.nearest q)
  | .string s => .string s
  | .array elems => .array (ofElems elems)
  | .object members => .object (ofMembers members)
where
  ofElems : List JsonTree → List Generic
    | [] => []
    | e :: es => ofTree e :: ofElems es
  ofMembers : List (Str × JsonTree) → List (Str × Generic)
    | [] => []
    | (k, v) :: ms => (k, ofTree v) :: ofMembers ms

/-- Every string and every key of the tree satisfies `P`. -/
def Generic.StringsIn (P : Str → Prop) : Generic → Prop
  | .string s => P s
  | .array elems => elemsIn elems
  | .object members => membersIn members
  | _ => True
where
  elemsIn : List Generic → Prop
    | [] => True
    | e :: es => e.StringsIn P ∧ elemsIn es
  membersIn : List (Str × Generic) → Prop
    | [] => True
    | (k, v) :: ms => P k ∧ v.StringsIn P ∧ membersIn ms

mutual

theorem Generic.stringsIn_true (g : Generic) : g.StringsIn (fun _ => True) := by
  cases g with
  | array elems => exact stringsIn_true_elems elems
  | object members => exact stringsIn_true_members members
  | _ => trivial

theorem Generic.stringsIn_true_elems (elems : List Generic) :
    StringsIn.elemsIn (fun _ => True) elems := by
  cases elems with
  | nil => trivial
  | cons e es => exact ⟨e.stringsIn_true, stringsIn_true_elems es⟩

theorem Generic.stringsIn_true_members (members : List (Str × Generic)) :
    StringsIn.membersIn (fun _ => True) members := by
  cases members with
  | nil => trivial
  | cons p ms => exact ⟨trivial, p.2.stringsIn_true, stringsIn_true_members ms⟩

end

mutual

theorem Generic.stringsIn_ofTree {P : Str → Prop} {t : JsonTree} (h : t.StringsIn P) :
    (Generic.ofTree t).StringsIn P := by
  cases t with
  | string s => exact h
  | array elems => exact stringsIn_ofElems h
  | object members => exact stringsIn_ofMembers h
  | _ => trivial

theorem Generic.stringsIn_ofElems {P : Str → Prop} {elems : List JsonTree}
    (h : JsonTree.StringsIn.elemsIn P elems) : StringsIn.elemsIn P (ofTree.ofElems elems) := by
  cases elems with
  | nil => trivial
  | cons e es => exact ⟨stringsIn_ofTree h.1, stringsIn_ofElems h.2⟩

theorem Generic.stringsIn_ofMembers {P : Str → Prop} {members : List (Str × JsonTree)}
    (h : JsonTree.StringsIn.membersIn P members) :
    StringsIn.membersIn P (ofTree.ofMembers members) := by
  cases members with
  | nil => trivial
  | cons p ms => exact ⟨h.1, stringsIn_ofTree h.2.1, stringsIn_ofMembers h.2.2⟩

end

/-- Every leaf of the value satisfies `leaf` and every key `key`. -/
def Json.Leaves (leaf : Json → Prop) (key : Str → Prop) : Json → Prop
  | .array elems => leavesElems elems
  | .object members => leavesMembers members
  | j => leaf j
where
  leavesElems : List Json → Prop
    | [] => True
    | e :: es => e.Leaves leaf key ∧ leavesElems es
  leavesMembers : List (Str × Json) → Prop
    | [] => True
    | (k, v) :: ms => key k ∧ v.Leaves leaf key ∧ leavesMembers ms

section Leaves

variable {P Q R : Json → Prop} {K L M : Str → Prop}

mutual

theorem Json.Leaves.and_imp (h : ∀ l, P l → Q l → R l) (hk : ∀ k, K k → L k → M k)
    {j : Json} (hp : j.Leaves P K) (hq : j.Leaves Q L) : j.Leaves R M := by
  cases j with
  | array elems => exact leavesElems_and_imp h hk hp hq
  | object members => exact leavesMembers_and_imp h hk hp hq
  | null => exact h _ hp hq
  | boolean b => exact h _ hp hq
  | integer n => exact h _ hp hq
  | number d => exact h _ hp hq
  | string s => exact h _ hp hq

theorem Json.Leaves.leavesElems_and_imp (h : ∀ l, P l → Q l → R l)
    (hk : ∀ k, K k → L k → M k) {elems : List Json} (hp : leavesElems P K elems)
    (hq : leavesElems Q L elems) : leavesElems R M elems := by
  cases elems with
  | nil => trivial
  | cons e es => exact ⟨Leaves.and_imp h hk hp.1 hq.1, leavesElems_and_imp h hk hp.2 hq.2⟩

theorem Json.Leaves.leavesMembers_and_imp (h : ∀ l, P l → Q l → R l)
    (hk : ∀ k, K k → L k → M k) {members : List (Str × Json)} (hp : leavesMembers P K members)
    (hq : leavesMembers Q L members) : leavesMembers R M members := by
  cases members with
  | nil => trivial
  | cons p ms =>
    exact ⟨hk _ hp.1 hq.1, Leaves.and_imp h hk hp.2.1 hq.2.1,
      leavesMembers_and_imp h hk hp.2.2 hq.2.2⟩

end

theorem Json.Leaves.leavesElems_iff (elems : List Json) :
    leavesElems P K elems ↔ ∀ e ∈ elems, e.Leaves P K := by
  induction elems with
  | nil => simp [leavesElems]
  | cons e es ih => simp [leavesElems, ih]

theorem Json.Leaves.leavesMembers_iff (members : List (Str × Json)) :
    leavesMembers P K members ↔ ∀ e ∈ members, K e.1 ∧ e.2.Leaves P K := by
  induction members with
  | nil => simp [leavesMembers]
  | cons p ms ih => simp [leavesMembers, ih, and_assoc]

theorem Json.Ordered.orderedElems_iff (elems : List Json) :
    orderedElems elems ↔ ∀ e ∈ elems, e.Ordered := by
  induction elems with
  | nil => simp [orderedElems]
  | cons e es ih => simp [orderedElems, ih]

theorem Json.Ordered.orderedMembers_iff (members : List (Str × Json)) :
    orderedMembers members ↔ ∀ e ∈ members, e.2.Ordered := by
  induction members with
  | nil => simp [orderedMembers]
  | cons p ms ih => simp [orderedMembers, ih]

/-- The members of an ordered value are ordered. -/
theorem Json.Ordered.index {j v : Json} {key : Str} (h : j.Ordered) (hv : j.index key = .ok v) :
    v.Ordered := by
  obtain ⟨members, rfl, hfind⟩ := index_ok.mp hv
  exact (orderedMembers_iff members).mp h.2 _ (Assoc.find?_mem hfind)

end Leaves

/-- What printing a value and reading the text back makes of each leaf. -/
def Json.reread [Platform] : Json → Json
  | .integer n => fromNumber (castDouble n)
  | .number d => fromNumber d
  | .array elems => .array (rereadElems elems)
  | .object members => .object (rereadMembers members)
  | j => j
where
  rereadElems : List Json → List Json
    | [] => []
    | e :: es => e.reread :: rereadElems es
  rereadMembers : List (Str × Json) → List (Str × Json)
    | [] => []
    | (k, v) :: ms => (k, v.reread) :: rereadMembers ms

/-- A leaf that its text is read as. -/
structure Json.Leaf [Platform] (valid : Str → Prop) (l : Json) : Prop where
  reread : l.reread = l
  finite : ∀ d, l = .number d → d.isFinite = true
  strings : ∀ s, l = .string s → valid s

/-- A value that its text is read as. -/
@[mk_iff] structure Json.Lasting [Platform] (valid : Str → Prop) (j : Json) : Prop where
  ordered : j.Ordered
  leaves : j.Leaves (Json.Leaf valid) valid

/-- A value without infinities and NaNs, for which JSON has no text. -/
def Json.Finite (j : Json) : Prop :=
  j.Leaves (fun l => ∀ d, l = .number d → d.isFinite = true) (fun _ => True)

theorem Json.Lasting.finite [Platform] {valid : Str → Prop} {j : Json} (h : j.Lasting valid) :
    j.Finite :=
  h.leaves.and_imp (fun _ hl _ => hl.finite) (fun _ _ _ => trivial) h.leaves

/-- `glz::read_json` accepts each JSON text whose strings are all `valid` and
yields the tree the text denotes, with the nearest double for each number. -/
def ReadsTexts [Platform] (valid : Str → Prop) : Prop :=
  ∀ text t, JsonText.Denotes text t → t.Ordered → t.StringsIn valid →
    Platform.readJson text = .ok (.ofTree t)

/-- `glz::read_json` reads the longest JSON value that a text starts with, and
accepts no text that starts with none. `trailing` is what may come after the
value: white space, and more where the reader stops at the value's end. -/
structure ReadsLeadingValue [Platform] (valid trailing : Str → Prop) : Prop where
  ends : ∀ w, JsonText.Ws w → trailing w
  reads : ∀ w s r t, JsonText.Ws w → JsonText.Value s t →
    (∀ s' r' t', JsonText.Value s' t' → s' ++ r' = s ++ r → s'.length ≤ s.length) →
    t.Ordered → t.StringsIn valid → trailing r →
    Platform.readJson (w ++ (s ++ r)) = .ok (.ofTree t)
  accepts : ∀ text g, Platform.readJson text = .ok g →
    ∃ w s r t, JsonText.Ws w ∧ JsonText.Value s t ∧ trailing r ∧ text = w ++ (s ++ r) ∧
      (t.Ordered → g = .ofTree t)

/-- Whatever `glz::read_json` accepts, the strings it yields are `valid`. -/
def YieldsStrings [Platform] (valid : Str → Prop) : Prop :=
  ∀ text g, Platform.readJson text = .ok g → g.StringsIn valid

/-- `std::to_chars` prints a finite double as a JSON number that reads back to
the same double. -/
def PrintsDoubles [Platform] : Prop :=
  ∀ x : FiniteDouble, ∃ n : JsonNumber,
    Platform.toChars (.finite x) = n.text ∧ Double.nearest n.value = .finite x

/-- A cast to `std::int64_t` out of its range ends at one of the two bounds. -/
def SaturatesCasts [Platform] : Prop :=
  ∀ d, Platform.castOutOfRange d = Int64.minValue ∨ Platform.castOutOfRange d = Int64.maxValue

end Forgeant
