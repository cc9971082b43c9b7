import Forgeant.Json.Reading
import Forgeant.Proofs.Writing

namespace Forgeant.Proofs.Places
open Effect Writing

theorem overlap_nil (q : Path) : Path.Overlap [] q := .inl List.nil_prefix

theorem nil_overlap (p : Path) : Path.Overlap p [] := .inr List.nil_prefix

theorem overlap_cons {s : PathStep} {p q : Path} (h : ¬ Path.Overlap (s :: p) (s :: q)) :
    ¬ p.Overlap q := by
  intro hpq
  apply h
  exact hpq.imp (List.prefix_cons_inj s).mpr (List.prefix_cons_inj s).mpr

/-- From `j` to `j'` the value was put at its place, which nothing blocked, and
nothing else changed. -/
structure Assigned (a : Assignment) (j j' : Json) : Prop where
  free : ¬ a.Blocked j
  placed : j'.node? a.place = some a.value
  others : ∀ q, ¬ a.place.Overlap q → j'.node? q = j.node? q
  ordered : j.Ordered → a.value.Ordered → j'.Ordered

theorem not_blocked_null (a : Assignment) : ¬ a.Blocked .null := by
  rintro ⟨above, key, below, v, _, hv, hnull, _⟩
  cases above with
  | nil =>
    cases hv
    exact hnull rfl
  | cons k above => cases hv

/-- What blocks the way below a member stands below it. -/
theorem blocked_member {key : Str} {path : List Str} {v : Json} {members : List (Str × Json)}
    (h : Assignment.Blocked ⟨key :: path, v⟩ (.object members)) :
    Assignment.Blocked ⟨path, v⟩ ((Assoc.find? key members).getD .null) := by
  obtain ⟨above, k, below, w, hpath, hw, hnull, hobject⟩ := h
  cases above with
  | nil =>
    cases hw
    exact absurd rfl (hobject members)
  | cons first above =>
    cases hpath
    change (Assoc.find? key members).bind _ = _ at hw
    obtain ⟨child, hfind, hchild⟩ := Option.bind_eq_some_iff.mp hw
    rw [hfind]
    exact ⟨above, k, below, w, rfl, hchild, hnull, hobject⟩

theorem null_node? {q : Path} (h : q ≠ []) : Json.null.node? q = none := by
  cases q with
  | nil => exact absurd rfl h
  | cons step q =>
    cases step with
    | key k => rfl
    | index i => rfl

/-- A value put under a key, where there was one or was none. -/
theorem assigned_member {key : Str} {path : List Str} {v child' : Json}
    {members : List (Str × Json)}
    (h : Assigned ⟨path, v⟩ ((Assoc.find? key members).getD .null) child') :
    Assigned ⟨key :: path, v⟩ (.object members) (.object (Assoc.set key child' members)) where
  free := fun hblocked => h.free (blocked_member hblocked)
  placed := by
    show (Assoc.find? key (Assoc.set key child' members)).bind _ = _
    rw [Assoc.find?_set_self]
    exact h.placed
  others := by
    intro q hq
    cases q with
    | nil => exact absurd (nil_overlap _) hq
    | cons step q =>
      cases step with
      | index i => rfl
      | key k =>
        show (Assoc.find? k (Assoc.set key child' members)).bind _ = (Assoc.find? k members).bind _
        by_cases hk : k = key
        · subst hk
          have hbelow := overlap_cons hq
          rw [Assoc.find?_set_self, Option.bind_some, h.others q hbelow]
          cases hfind : Assoc.find? k members with
          | some child => rfl
          | none =>
            apply null_node?
            rintro rfl
            exact hbelow (nil_overlap _)
        · rw [Assoc.find?_set_ne hk]
  ordered := by
    intro ⟨ho, hmembers⟩ hv
    have hchild : ((Assoc.find? key members).getD .null).Ordered := by
      cases hfind : Assoc.find? key members with
      | none => trivial
      | some child =>
        exact (Json.Ordered.orderedMembers_iff members).mp hmembers _ (Assoc.find?_mem hfind)
    refine ⟨ho.set _ _, (Json.Ordered.orderedMembers_iff _).mpr ?_⟩
    intro e he
    rcases Assoc.set_mem he with rfl | he
    · exact h.ordered hchild hv
    · exact (Json.Ordered.orderedMembers_iff members).mp hmembers e he

/-- A null is assigned to as an object with no members is. -/
theorem assigned_null {a : Assignment} {j' : Json} (h : Assigned a (.object []) j') :
    Assigned a .null j' where
  free := not_blocked_null a
  placed := h.placed
  others := by
    intro q hq
    rw [h.others q hq]
    cases q with
    | nil => exact absurd (nil_overlap _) hq
    | cons step q =>
      cases step with
      | key k => rfl
      | index i => rfl
  ordered := fun _ hv => h.ordered ⟨.nil, trivial⟩ hv

theorem run_assignment (a : Assignment) {j : Json} (ho : j.Ordered) :
    (∃ j', a.write.run j = (.ok (), j') ∧ Assigned a j j') ∨
      a.write.run j = (.error (.std .badVariantAccess), j) ∧ a.Blocked j := by
  obtain ⟨path, v⟩ := a
  induction path generalizing j with
  | nil =>
    refine .inl ⟨v, rfl, ?_, rfl, ?_, fun _ hv => hv⟩
    · rintro ⟨above, key, below, _, hpath, _⟩
      simp at hpath
    · intro q hq
      exact absurd (overlap_nil q) hq
  | cons key path ih =>
    cases j with
    | null =>
      rcases ih (j := .null) trivial with ⟨child', hrun, hassigned⟩ | ⟨_, hblocked⟩
      · exact .inl ⟨_, run_member_null hrun, assigned_null (assigned_member hassigned)⟩
      · exact absurd hblocked (not_blocked_null _)
    | object members =>
      cases hfind : Assoc.find? key members with
      | none =>
        rcases ih (j := .null) trivial with ⟨child', hrun, hassigned⟩ | ⟨_, hblocked⟩
        · refine .inl ⟨_, run_member (v := child') ?_, assigned_member ?_⟩
          · rw [hfind]
            exact hrun
          · rw [hfind]
            exact hassigned
        · exact absurd hblocked (not_blocked_null _)
      | some child =>
        have hchild : child.Ordered :=
          (Json.Ordered.orderedMembers_iff members).mp ho.2 _ (Assoc.find?_mem hfind)
        rcases ih hchild with ⟨child', hrun, hassigned⟩ | ⟨hrun, hblocked⟩
        · refine .inl ⟨_, run_member (v := child') ?_, assigned_member ?_⟩
          · rw [hfind]
            exact hrun
          · rw [hfind]
            exact hassigned
        · refine .inr ⟨?_, ?_⟩
          · have hkept : (member key (through path (put v))).run (.object members) =
                (.error (.std .badVariantAccess), .object (Assoc.set key child members)) := by
              apply run_member
              rw [hfind]
              exact hrun
            rw [ho.1.set_self hfind] at hkept
            exact hkept
          · obtain ⟨above, k, below, w, hpath, hw, hnot⟩ := hblocked
            refine ⟨key :: above, k, below, w, congrArg (key :: ·) hpath, ?_, hnot⟩
            show (Assoc.find? key members).bind _ = _
            rw [hfind]
            exact hw
    | _ =>
      refine .inr ⟨rfl, [], key, path, _, rfl, rfl, ?_, ?_⟩
      · intro h
        cases h
      · intro _ h
        cases h

/-- Assignments through chains of `operator[]` are made in order, up to the first
that is blocked, which throws and changes nothing. What was put at a place stays
until an assignment overlaps it, and a place that none overlaps is as it was. -/
theorem assignments_settle {j : Json} (ho : j.Ordered) {as : List Assignment}
    (hvalues : ∀ a ∈ as, a.value.Ordered) :
    ∃ done rest j', as = done ++ rest ∧ j'.Ordered ∧
      (rest = [] ∧ (forM as Assignment.write).run j = (.ok (), j') ∨
        ∃ a later, rest = a :: later ∧ a.Blocked j' ∧
          (forM as Assignment.write).run j = (.error (.std .badVariantAccess), j')) ∧
      (∀ before a after, done = before ++ a :: after →
        ∃ u, (forM before Assignment.write).run j = (.ok (), u) ∧ ¬ a.Blocked u) ∧
      (∀ before a after, done = before ++ a :: after →
        (∀ b ∈ after, ¬ b.place.Overlap a.place) → j'.node? a.place = some a.value) ∧
      ∀ q, (∀ a ∈ done, ¬ a.place.Overlap q) → j'.node? q = j.node? q := by
  induction as generalizing j with
  | nil =>
    -- no assignment was made
    exact ⟨[], [], j, rfl, ho, .inl ⟨rfl, rfl⟩, by simp, by simp, fun _ _ => rfl⟩
  | cons a as ih =>
    rcases run_assignment a ho with ⟨u, hrun, hassigned⟩ | ⟨hrun, hblocked⟩
    · obtain ⟨done, rest, j', rfl, ho', hend, hfree, hlast, hothers⟩ :=
        ih (hassigned.ordered ho (hvalues a List.mem_cons_self))
          (fun b hb => hvalues b (List.mem_cons_of_mem _ hb))
      refine ⟨a :: done, rest, j', rfl, ho', ?_, ?_, ?_, ?_⟩
      · rw [List.forM_cons, run_bind_ok hrun]
        exact hend
      · intro before b after hsplit
        cases before with
        | nil =>
          cases hsplit
          exact ⟨j, rfl, hassigned.free⟩
        | cons first before =>
          cases hsplit
          rw [List.forM_cons, run_bind_ok hrun]
          exact hfree before b after rfl
      · intro before b after hsplit hclear
        cases before with
        | nil =>
          cases hsplit
          rw [hothers _ hclear]
          exact hassigned.placed
        | cons first before =>
          cases hsplit
          exact hlast before b after rfl hclear
      · intro q hclear
        rw [hothers q (fun b hb => hclear b (List.mem_cons_of_mem _ hb))]
        exact hassigned.others q (hclear a List.mem_cons_self)
    · have hthrows : (forM (a :: as) Assignment.write).run j =
          (.error (.std .badVariantAccess), j) := by
        rw [List.forM_cons]
        exact run_bind_error hrun _
      exact ⟨[], a :: as, j, rfl, ho, .inr ⟨a, as, rfl, hblocked, hthrows⟩, by simp, by simp,
        fun _ _ => rfl⟩

theorem assignments_settle_twice :
    ∃ j', (forM [⟨[str "a", str "b"], .boolean true⟩, ⟨[str "a", str "c"], .null⟩]
        Assignment.write).run .null = (.ok (), j') ∧
      j'.node? [.key (str "a"), .key (str "b")] = some (.boolean true) := by
  let first : Assignment := ⟨[str "a", str "b"], .boolean true⟩
  let second : Assignment := ⟨[str "a", str "c"], .null⟩
  have hvalues : ∀ a ∈ [first, second], a.value.Ordered := by
    simp only [List.forall_mem_cons]
    exact ⟨trivial, trivial, List.forall_mem_nil _⟩
  obtain ⟨done, rest, j', hsplit, _, hend, _, hlast, _⟩ :=
    assignments_settle (j := .null) trivial hvalues
  rcases hend with ⟨rfl, hrun⟩ | ⟨_, _, _, _, hrun⟩
  · refine ⟨j', hrun, hlast [] first [second] ?_ ?_⟩
    · rw [List.append_nil] at hsplit
      exact hsplit.symm
    · intro b hb
      cases List.mem_singleton.mp hb
      have hne : str "c" ≠ str "b" := by decide
      rintro (⟨t, ht⟩ | ⟨t, ht⟩)
      · exact hne (PathStep.key.inj (List.cons.inj (List.cons.inj ht).2).1)
      · exact hne (PathStep.key.inj (List.cons.inj (List.cons.inj ht).2).1).symm
  · cases hrun

end Forgeant.Proofs.Places
