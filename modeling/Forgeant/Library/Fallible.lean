import Mathlib.Data.List.Forall2

namespace Except

universe u v

variable {ε : Type v} {α β : Type u}

theorem bind_ok {x : Except ε α} {f : α → Except ε β} {b : β} :
    x >>= f = .ok b ↔ ∃ a, x = .ok a ∧ f a = .ok b := by
  cases x with
  | error e =>
    constructor
    · intro h
      cases h
    · intro ⟨_, h, _⟩
      cases h
  | ok a =>
    constructor
    · intro h
      exact ⟨a, rfl, h⟩
    · intro ⟨_, h, hf⟩
      cases h
      exact hf

theorem pure_ok {a b : α} : (pure a : Except ε α) = .ok b ↔ a = b :=
  ⟨fun h => Except.ok.inj h, congrArg _⟩

theorem map_ok_iff {f : α → β} {x : Except ε α} {b : β} :
    x.map f = .ok b ↔ ∃ a, x = .ok a ∧ f a = b := by
  cases x with
  | error e =>
    constructor
    · intro h
      cases h
    · intro ⟨_, h, _⟩
      cases h
  | ok a =>
    constructor
    · intro h
      exact ⟨a, rfl, Except.ok.inj h⟩
    · intro ⟨_, h, hf⟩
      cases h
      exact congrArg Except.ok hf

theorem map_injective {f : α → β} (hf : f.Injective) :
    Function.Injective (Except.map f : Except ε α → Except ε β) := by
  intro x y h
  cases y with
  | ok b =>
    obtain ⟨a, rfl, hab⟩ := map_ok_iff.mp h
    rw [hf hab]
  | error e' =>
    cases x with
    | error e =>
      cases h
      rfl
    | ok a => cases h

/-- A walk over a list returns what its calls return one by one. -/
theorem mapM_ok {f : α → Except ε β} {as : List α} {bs : List β} :
    as.mapM f = .ok bs ↔ List.Forall₂ (fun a b => f a = .ok b) as bs := by
  induction as generalizing bs with
  | nil =>
    rw [List.mapM_nil, pure_ok, List.forall₂_nil_left_iff]
    exact eq_comm
  | cons a as ih =>
    simp only [List.mapM_cons, bind_ok, pure_ok, List.forall₂_cons_left_iff, ih]
    constructor
    · intro ⟨b, hb, bs', hbs, h⟩
      exact ⟨b, bs', hb, hbs, h.symm⟩
    · intro ⟨b, bs', hb, hbs, h⟩
      exact ⟨b, hb, bs', hbs, h.symm⟩

theorem mapM_returns {f : α → Except ε β} {as : List α} :
    (∃ bs, as.mapM f = .ok bs) ↔ ∀ a ∈ as, ∃ b, f a = .ok b := by
  simp only [mapM_ok]
  induction as with
  | nil => simp
  | cons a as ih =>
    rw [List.forall_mem_cons, ← ih]
    constructor
    · intro ⟨bs, h⟩
      obtain ⟨b, bs', hb, hbs, _⟩ := List.forall₂_cons_left_iff.mp h
      exact ⟨⟨b, hb⟩, bs', hbs⟩
    · intro ⟨⟨b, hb⟩, bs, hbs⟩
      exact ⟨b :: bs, .cons hb hbs⟩

theorem mapM_cons {f : α → Except ε β} {a : α} {as : List α} {b : β} {bs : List β} :
    (a :: as).mapM f = .ok (b :: bs) ↔ f a = .ok b ∧ as.mapM f = .ok bs := by
  simp only [mapM_ok, List.forall₂_cons]

/-- Another element in one place changes nothing just when the call for it
returns the same. -/
theorem mapM_modify {f : α → Except ε β} {g : α → α} {as : List α} {bs : List β} {i : Nat} {a : α}
    (h : as.mapM f = .ok bs) (ha : as[i]? = some a) :
    (as.modify i g).mapM f = .ok bs ↔ f (g a) = f a := by
  induction as generalizing bs i with
  | nil => cases ha
  | cons x xs ih =>
    obtain ⟨b, bs', hb, _, rfl⟩ := List.forall₂_cons_left_iff.mp (mapM_ok.mp h)
    obtain ⟨_, hxs⟩ := mapM_cons.mp h
    cases i with
    | zero =>
      cases ha
      rw [List.modify_zero_cons, mapM_cons, hb, and_iff_left hxs]
    | succ i =>
      rw [List.modify_succ_cons, mapM_cons, and_iff_right hb]
      exact ih hxs ha

theorem mapM_map {γ : Type u} {f : β → Except ε γ} {g : α → β} {h : α → γ} {as : List α}
    (hfg : ∀ a ∈ as, f (g a) = .ok (h a)) : (as.map g).mapM f = .ok (as.map h) := by
  rw [mapM_ok, List.forall₂_map_left_iff, List.forall₂_map_right_iff, List.forall₂_same]
  exact hfg

/-- What a walk returned came from one of its calls. -/
theorem mapM_mem {f : α → Except ε β} {as : List α} {bs : List β} (h : as.mapM f = .ok bs) {b : β}
    (hb : b ∈ bs) : ∃ a ∈ as, f a = .ok b := by
  induction as generalizing bs with
  | nil =>
    cases h
    cases hb
  | cons a as ih =>
    obtain ⟨b', bs', ha, has, rfl⟩ := List.forall₂_cons_left_iff.mp (mapM_ok.mp h)
    rcases List.mem_cons.mp hb with rfl | hb
    · exact ⟨a, List.mem_cons_self, ha⟩
    · obtain ⟨a', ha', hf⟩ := ih (mapM_ok.mpr has) hb
      exact ⟨a', List.mem_cons_of_mem _ ha', hf⟩

/-- What holds of each call holds of the walk. -/
theorem map_eq_of_mapM {γ : Type u} {f : α → Except ε β} {g : α → γ} {h : β → γ} {as : List α}
    {bs : List β} (hf : as.mapM f = .ok bs) (hfg : ∀ a ∈ as, ∀ b, f a = .ok b → h b = g a) :
    bs.map h = as.map g := by
  induction as generalizing bs with
  | nil =>
    cases hf
    rfl
  | cons a as ih =>
    obtain ⟨b, bs', hb, _, rfl⟩ := List.forall₂_cons_left_iff.mp (mapM_ok.mp hf)
    obtain ⟨_, has⟩ := mapM_cons.mp hf
    rw [List.map_cons, List.map_cons, hfg a List.mem_cons_self b hb,
      ih has (fun a' ha' => hfg a' (List.mem_cons_of_mem _ ha'))]

/-- A loop that folds in the value of each call folds the values of the walk. -/
theorem foldlM_eq_mapM {γ : Type u} (f : α → Except ε β) (push : γ → β → γ) (as : List α) (c : γ) :
    as.foldlM (fun c a => do return push c (← f a)) c = do return (← as.mapM f).foldl push c := by
  induction as generalizing c with
  | nil => rfl
  | cons a as ih =>
    rw [List.foldlM_cons, List.mapM_cons]
    cases f a with
    | error e => rfl
    | ok b =>
      have hstep := ih (push c b)
      cases hbs : as.mapM f with
      | error e =>
        rw [hbs] at hstep
        exact hstep
      | ok bs =>
        rw [hbs] at hstep
        exact hstep

/-- Both computations return, with related values, or both throw related
exceptions. -/
inductive Rel {ε' : Type v} {β' : Type u} (E : ε → ε' → Prop) (R : α → β' → Prop) :
    Except ε α → Except ε' β' → Prop
  | ok {a : α} {b : β'} (h : R a b) : Rel E R (.ok a) (.ok b)
  | error {e : ε} {e' : ε'} (h : E e e') : Rel E R (.error e) (.error e')

end Except
