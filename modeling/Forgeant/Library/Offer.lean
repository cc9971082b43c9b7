import Mathlib.Data.List.Basic

namespace Offer

variable {α τ : Type*}

/-- Whether every item was taken, and the state after the last one handed over. -/
def offer (take : α → τ → Bool × τ) : List α → τ → Bool × τ
  | [], t => (true, t)
  | a :: as, t =>
    match take a t with
    | (true, t) => offer take as t
    | (false, t) => (false, t)

/-- Every item is taken, from the first state to the last. -/
inductive Taken (take : α → τ → Bool × τ) : List α → τ → τ → Prop
  | nil (t : τ) : Taken take [] t t
  | cons {a : α} {as : List α} {t u v : τ} (h : take a t = (true, u)) (rest : Taken take as u v) :
      Taken take (a :: as) t v

variable {take : α → τ → Bool × τ} {a : α} {as bs : List α} {t u v : τ}

theorem taken_nil : Taken take [] t u ↔ u = t := by
  constructor
  · intro h
    cases h
    rfl
  · rintro rfl
    exact .nil _

theorem taken_cons : Taken take (a :: as) t v ↔ ∃ u, take a t = (true, u) ∧ Taken take as u v := by
  constructor
  · intro h
    cases h with
    | cons h rest => exact ⟨_, h, rest⟩
  · intro ⟨u, h, rest⟩
    exact .cons h rest

theorem offer_true : offer take as t = (true, u) ↔ Taken take as t u := by
  induction as generalizing t with
  | nil => simp [offer, taken_nil, eq_comm]
  | cons a as ih =>
    rw [taken_cons, offer]
    rcases hc : take a t with ⟨_ | _, v⟩
    · simp
    · simp [ih]

/-- The items before the refused one were all taken; those after it are never
handed over. -/
theorem offer_false : offer take as t = (false, u) ↔
    ∃ bs a cs v, as = bs ++ a :: cs ∧ Taken take bs t v ∧ take a v = (false, u) := by
  induction as generalizing t with
  | nil => simp [offer]
  | cons a as ih =>
    rw [offer]
    rcases hc : take a t with ⟨_ | _, v⟩
    · constructor
      · intro h
        obtain rfl : v = u := by simpa using h
        exact ⟨[], a, as, t, rfl, .nil t, hc⟩
      · intro ⟨bs, b, cs, x, has, hbs, hb⟩
        cases hbs with
        | nil =>
          cases has
          rw [hc] at hb
          exact hb
        | cons h rest =>
          cases has
          rw [hc] at h
          cases h
    · simp only [ih]
      constructor
      · intro ⟨bs, b, cs, x, has, hbs, hb⟩
        exact ⟨a :: bs, b, cs, x, by rw [has, List.cons_append], .cons hc hbs, hb⟩
      · intro ⟨bs, b, cs, x, has, hbs, hb⟩
        cases hbs with
        | nil =>
          cases has
          rw [hc] at hb
          cases hb
        | cons h rest =>
          cases has
          rw [hc] at h
          cases h
          exact ⟨_, b, cs, x, rfl, rest, hb⟩

end Offer
