import Forgeant.Json.Get
import Forgeant.Provider.Http

namespace Forgeant.Proofs.TypedGet

/-- What typed extraction promises of a value: it returns exactly for a value
of the target's shape whose integers the target can hold, and then what the
value says. -/
structure Faithful (target : TargetType) (j : Json) : Prop where
  returns : (∃ v, j.get target = .ok v) ↔ target.Shape j ∧ target.Represented j
  denotes : ∀ v, j.get target = .ok v → target.Denotes v j

theorem get_returns (target : TargetType) (j : Json) :
    (∃ v, j.get target = .ok v) ↔ target.Shape j := by
  induction target generalizing j with
  | vector elem ih =>
    constructor
    · intro ⟨vs, h⟩
      obtain ⟨elems, helems, hmap⟩ := Except.bind_ok.mp h
      refine ⟨elems, Json.elements_ok.mp helems, ?_⟩
      intro e he
      exact (ih e).mp (Except.mapM_returns.mp ⟨vs, hmap⟩ e he)
    · intro ⟨elems, hj, h⟩
      obtain ⟨vs, hmap⟩ := Except.mapM_returns.mpr (fun e he => (ih e).mpr (h e he))
      exact ⟨vs, Except.bind_ok.mpr ⟨elems, Json.elements_ok.mpr hj, hmap⟩⟩
  | boolean =>
    cases j with
    | boolean b => exact iff_of_true ⟨b, rfl⟩ ⟨b, rfl⟩
    | _ => simp [Json.get, Json.getBool, TargetType.Shape]
  | string =>
    cases j with
    | string s => exact iff_of_true ⟨s, rfl⟩ ⟨s, rfl⟩
    | _ => simp [Json.get, Json.getString, TargetType.Shape]
  | integer =>
    cases j with
    | integer n => exact iff_of_true ⟨n, rfl⟩ ⟨n, rfl⟩
    | _ => simp [Json.get, Json.getInteger, TargetType.Shape]
  | integral t =>
    cases j with
    | integer n => exact iff_of_true ⟨_, rfl⟩ ⟨n, rfl⟩
    | _ => simp [Json.get, Json.getIntegral, TargetType.Shape]

theorem getIntegral_ok {t : IntegralType} {j : Json} {v : t.Value}
    (h : j.getIntegral t = .ok v) : ∃ n, j = .integer n ∧ v.val = t.cast n.toInt := by
  cases j with
  | integer n =>
    cases h
    exact ⟨n, rfl, rfl⟩
  | _ => cases h

/-- What was read is what the value says, unless an integer was too large for
the type it went into. -/
theorem denotes_iff (target : TargetType) {j : Json} {v : target.Value}
    (h : j.get target = .ok v) : target.Denotes v j ↔ target.Represented j := by
  induction target generalizing j with
  | vector elem ih =>
    obtain ⟨elems, helems, hmap⟩ := Except.bind_ok.mp h
    have hall := Except.mapM_ok.mp hmap
    rw [Json.elements_ok.mp helems]
    simp only [TargetType.Denotes, TargetType.Represented, Json.array.injEq, exists_eq_left',
      forall_eq']
    clear h helems hmap
    induction hall with
    | nil => simp
    | cons he _ ihs => simp [ih he, ihs]
  | integral t =>
    obtain ⟨n, rfl, hv⟩ := getIntegral_ok h
    simp only [TargetType.Denotes, TargetType.Represented, Json.integer.injEq, exists_eq_left',
      forall_eq', hv]
    rw [← t.cast_eq_iff]
    exact eq_comm
  | boolean =>
    cases j with
    | boolean b =>
      cases h
      exact iff_of_true rfl trivial
    | _ => cases h
  | string =>
    cases j with
    | string s =>
      cases h
      exact iff_of_true rfl trivial
    | _ => cases h
  | integer =>
    cases j with
    | integer n =>
      cases h
      exact iff_of_true rfl trivial
    | _ => cases h

theorem faithful_iff (target : TargetType) (j : Json) :
    Faithful target j ↔ (target.Shape j → target.Represented j) := by
  constructor
  · intro ⟨returns, _⟩ shape
    exact (returns.mp ((get_returns target j).mpr shape)).2
  · intro h
    constructor
    · rw [get_returns]
      constructor
      · intro shape
        exact ⟨shape, h shape⟩
      · intro hboth
        exact hboth.1
    · intro v hv
      apply (denotes_iff target hv).mpr
      exact h ((get_returns target j).mp ⟨v, hv⟩)

/-- A counter of a response's usage, where there is one, is the token count. -/
def Counts (json : Json) (key : Str) (tokens : Int) : Prop :=
  ∀ usage n, json.index (str "usage") = .ok usage → usage.index key = .ok (.integer n) →
    tokens = n.toInt

/-- A counter that there is fits an `int`. -/
def FitsInt (json : Json) (key : Str) : Prop :=
  ∀ usage n, json.index (str "usage") = .ok usage → usage.index key = .ok (.integer n) →
    IntegralType.int.Represents n.toInt

theorem counts_iff {json usage : Json} {key : Str} {tokens : Int}
    (husage : json.index (str "usage") = .ok usage)
    (h : usage.value Json.getInt key 0 = .ok tokens) :
    Counts json key tokens ↔ FitsInt json key := by
  have hcast : ∀ n, usage.index key = .ok (.integer n) → tokens = IntegralType.int.cast n.toInt := by
    intro n hn
    obtain ⟨members, rfl, hfind⟩ := Json.index_ok.mp hn
    simp only [Json.value, hfind, Json.getInt_eq] at h
    cases h
    rfl
  unfold Counts FitsInt
  constructor
  · intro hcounts usage' n hu hn
    apply (IntegralType.cast_eq_iff _ _).mp
    have hcount := hcounts usage' n hu hn
    cases husage.symm.trans hu
    exact (hcast n hn).symm.trans hcount
  · intro hfits usage' n hu hn
    have := (IntegralType.cast_eq_iff _ _).mpr (hfits usage' n hu hn)
    cases husage.symm.trans hu
    rw [hcast n hn, this]

theorem deserializeUsage_counts {inputKey outputKey : Str} {json : Json} {usage : Usage}
    (h : deserializeUsage inputKey outputKey json = .ok usage) :
    (Counts json inputKey usage.inputTokens ∧ Counts json outputKey usage.outputTokens) ↔
      FitsInt json inputKey ∧ FitsInt json outputKey := by
  cases hc : json.contains (str "usage") with
  | true =>
    obtain ⟨u, hu⟩ := Json.index_of_contains hc
    rw [deserializeUsage_of_index hu] at h
    obtain ⟨i, hi, h⟩ := Except.bind_ok.mp h
    obtain ⟨o, ho, h⟩ := Except.bind_ok.mp h
    cases h
    rw [counts_iff hu hi, counts_iff hu ho]
  | false =>
    have hnone : ∀ u, json.index (str "usage") ≠ .ok u := by
      intro u hu
      rw [Json.contains_of_index hu] at hc
      cases hc
    simp [Counts, FitsInt, hnone]

/-- Typed extraction alters no value, and the token counters no count, exactly
where every integer fits the type that it is read into. -/
theorem get_faithful_iff (target : TargetType) (j : Json) :
    (Faithful target j ↔ (target.Shape j → target.Represented j)) ∧
    ∀ inputKey outputKey usage, deserializeUsage inputKey outputKey j = .ok usage →
      ((Counts j inputKey usage.inputTokens ∧ Counts j outputKey usage.outputTokens) ↔
        FitsInt j inputKey ∧ FitsInt j outputKey) :=
  ⟨faithful_iff target j, fun _ _ _ => deserializeUsage_counts⟩

/-- The first integer past `int` is read as its lowest value. -/
theorem not_faithful_pastInt : ¬ ∀ (target : TargetType) (j : Json), Faithful target j := by
  intro h
  have hread : (Json.integer 2147483648).get (.integral .int) =
      .ok ⟨-2147483648, by decide⟩ := by
    simp only [Json.get, Json.getIntegral]
    rfl
  obtain ⟨n, hj, hn⟩ := (h (.integral .int) (.integer 2147483648)).denotes _ hread
  cases hj
  exact absurd hn (by decide)

end Forgeant.Proofs.TypedGet
