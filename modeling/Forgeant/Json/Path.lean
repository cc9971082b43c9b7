import Forgeant.Json.Text

namespace Forgeant

inductive PathStep where
  | key (k : Str)
  | index (i : Nat)

abbrev Path := List PathStep

/-- What stands at a position, if the tree has it. -/
def Json.node? : Path → Json → Option Json
  | [], j => some j
  | .key k :: path, .object members => (Assoc.find? k members).bind (node? path)
  | .index i :: path, .array elems => elems[i]?.bind (node? path)
  | _, _ => none

def Generic.node? : Path → Generic → Option Generic
  | [], g => some g
  | .key k :: path, .object members => (Assoc.find? k members).bind (node? path)
  | .index i :: path, .array elems => elems[i]?.bind (node? path)
  | _, _ => none

/-- The tree with `f` applied at a position; one that has no such position is
left as it is. -/
def Json.update (f : Json → Json) : Path → Json → Json
  | [], j => f j
  | .key k :: path, .object members => .object (Assoc.adjust k (update f path) members)
  | .index i :: path, .array elems => .array (elems.modify i (update f path))
  | _, j => j

theorem Json.node?_key {k : Str} {path : Path} {j v : Json}
    (h : j.node? (.key k :: path) = some v) :
    ∃ members child, j = .object members ∧ Assoc.find? k members = some child ∧
      child.node? path = some v := by
  cases j with
  | object members =>
    obtain ⟨child, hchild, hv⟩ := Option.bind_eq_some_iff.mp h
    exact ⟨members, child, rfl, hchild, hv⟩
  | _ => cases h

theorem Json.node?_index {i : Nat} {path : Path} {j v : Json}
    (h : j.node? (.index i :: path) = some v) :
    ∃ elems child, j = .array elems ∧ elems[i]? = some child ∧ child.node? path = some v := by
  cases j with
  | array elems =>
    obtain ⟨child, hchild, hv⟩ := Option.bind_eq_some_iff.mp h
    exact ⟨elems, child, rfl, hchild, hv⟩
  | _ => cases h

theorem Json.node?_of_index {k : Str} {j v : Json} (h : j.index k = .ok v) (path : Path) :
    j.node? (.key k :: path) = v.node? path := by
  obtain ⟨members, rfl, hfind⟩ := index_ok.mp h
  simp only [node?, hfind, Option.bind_some]

theorem Json.node?_of_missing {k : Str} {j : Json} (h : j.contains k = false) (path : Path) :
    j.node? (.key k :: path) = none := by
  cases j with
  | object members =>
    simp only [node?, contains_object_false.mp h, Option.bind_none]
  | _ => rfl

section

variable {α : Type} {f : Json → Json} {k k' : Str}

theorem Json.value_update (h : k' ≠ k) (path : Path) (get : Json → Except StdException α) (d : α)
    (j : Json) : (j.update f (.key k :: path)).value get k' d = j.value get k' d := by
  cases j with
  | object members => simp only [update, value, Assoc.find?_adjust_ne h]
  | _ => rfl

theorem Json.index_update_ne (h : k' ≠ k) (path : Path) (j : Json) :
    (j.update f (.key k :: path)).index k' = j.index k' := by
  cases j with
  | object members => simp only [update, index, Assoc.find?_adjust_ne h]
  | _ => rfl

theorem Json.contains_update (k k' : Str) (path : Path) (j : Json) :
    (j.update f (.key k :: path)).contains k' = j.contains k' := by
  cases j with
  | object members =>
    simp only [update, contains]
    by_cases h : k' = k
    · rw [h, Assoc.find?_adjust_self, Option.isSome_map]
    · rw [Assoc.find?_adjust_ne h]
  | _ => rfl

theorem Json.index_update {j v : Json} (h : j.index k = .ok v) (path : Path) :
    (j.update f (.key k :: path)).index k = .ok (v.update f path) := by
  obtain ⟨members, rfl, hfind⟩ := index_ok.mp h
  simp only [update, index, Assoc.find?_adjust_self, hfind, Option.map_some]

end

variable [Platform]

theorem fromElems_eq_map (elems : List Generic) :
    fromGeneric.fromElems elems = elems.map fromGeneric := by
  induction elems with
  | nil => rfl
  | cons e es ih => rw [fromGeneric.fromElems, ih, List.map_cons]

theorem fromMembers_eq_map (members : List (Str × Generic)) :
    fromGeneric.fromMembers members = members.map (fun e => (e.1, fromGeneric e.2)) := by
  induction members with
  | nil => rfl
  | cons p ms ih => rw [fromGeneric.fromMembers, ih, List.map_cons]

/-- The conversion keeps every position. -/
theorem fromGeneric_node? (path : Path) (g : Generic) :
    (fromGeneric g).node? path = (g.node? path).map fromGeneric := by
  induction path generalizing g with
  | nil => rfl
  | cons step path ih =>
    cases step with
    | key k =>
      cases g with
      | object members =>
        simp only [fromGeneric, Json.node?, Generic.node?, fromMembers_eq_map, Assoc.find?_ofList,
          Assoc.find?_map]
        cases Assoc.find? k members with
        | none => rfl
        | some child => exact ih child
      | number d =>
        simp only [fromGeneric, fromNumber]
        split <;> rfl
      | _ => rfl
    | index i =>
      cases g with
      | array elems =>
        simp only [fromGeneric, Json.node?, Generic.node?, fromElems_eq_map, List.getElem?_map]
        cases elems[i]? with
        | none => rfl
        | some child => exact ih child
      | number d =>
        simp only [fromGeneric, fromNumber]
        split <;> rfl
      | _ => rfl

end Forgeant
