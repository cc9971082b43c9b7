import Mathlib.Order.Basic

namespace Loop

/-- How one pass of a loop body ends: go round again in a new state, or leave
the loop (by a return or a throw) with a result. -/
inductive Step (σ ρ : Type*) where
  | again (s : σ)
  | leave (r : ρ)

/-- `for (i = i₀; i < i₀ + n; ++i) body`, followed by the code after the loop. -/
def run {σ ρ : Type*} (body : Nat → σ → Step σ ρ) (exit : σ → ρ) : Nat → Nat → σ → ρ
  | 0, _, s => exit s
  | n + 1, i, s =>
    match body i s with
    | .again t => run body exit n (i + 1) t
    | .leave r => r

variable {σ ρ σ' ρ' : Type*} {body : Nat → σ → Step σ ρ} {exit : σ → ρ}

@[simp] theorem run_zero (i : Nat) (s : σ) : run body exit 0 i s = exit s := rfl

theorem run_again {i : Nat} {s t : σ} (n : Nat) (h : body i s = .again t) :
    run body exit (n + 1) i s = run body exit n (i + 1) t := by
  simp only [run, h]

theorem run_leave {i : Nat} {s : σ} {r : ρ} (n : Nat) (h : body i s = .leave r) :
    run body exit (n + 1) i s = r := by
  simp only [run, h]

/-- The completed passes of a run: from index `i` and state `s`, every pass up
to index `j` went round again, and state `t` is where pass `j` would start. -/
inductive Passes (body : Nat → σ → Step σ ρ) (i : Nat) (s : σ) : Nat → σ → Prop
  | refl : Passes body i s i s
  | snoc {j : Nat} {t u : σ} (h : Passes body i s j t) (hb : body j t = .again u) :
      Passes body i s (j + 1) u

theorem Passes.cons {i j : Nat} {s t u : σ} (hb : body i s = .again t)
    (h : Passes body (i + 1) t j u) : Passes body i s j u := by
  induction h with
  | refl => exact .snoc .refl hb
  | snoc _ hl ih => exact .snoc ih hl

/-- A bounded loop either completes all its passes and falls out at the end,
or some pass within the bound leaves. -/
theorem run_cases (n i : Nat) (s : σ) :
    (∃ t, Passes body i s (i + n) t ∧ run body exit n i s = exit t) ∨
    (∃ j t r, j < i + n ∧ Passes body i s j t ∧ body j t = .leave r ∧
      run body exit n i s = r) := by
  induction n generalizing i s with
  | zero => exact .inl ⟨s, .refl, rfl⟩
  | succ n ih =>
    cases hb : body i s with
    | leave r => exact .inr ⟨i, s, r, by omega, .refl, hb, run_leave n hb⟩
    | again t =>
      rw [run_again n hb, show i + (n + 1) = i + 1 + n by omega]
      rcases ih (i + 1) t with ⟨u, hp, hr⟩ | ⟨j, u, r, hj, hp, hl, hr⟩
      · exact .inl ⟨u, hp.cons hb, hr⟩
      · exact .inr ⟨j, u, r, hj, hp.cons hb, hl, hr⟩

/-- What a run does is settled by its passes, whatever stands after the loop. -/
theorem Passes.run {i j : Nat} {s t : σ} (h : Passes body i s j t) {n k : Nat}
    (hn : i + n = j + k) : Loop.run body exit n i s = Loop.run body exit k j t := by
  induction h generalizing k with
  | refl => rw [show n = k by omega]
  | snoc h hb ih => rw [ih (k := k + 1) (by omega), run_again k hb]

/-- Both passes go round again in related states, or both leave with related
results. -/
def Step.Related (R : σ → σ' → Prop) (Q : ρ → ρ' → Prop) : Step σ ρ → Step σ' ρ' → Prop
  | .again s, .again s' => R s s'
  | .leave r, .leave r' => Q r r'
  | _, _ => False

/-- The simulation rule: two loops of the same bound whose passes go round
again together, and leave or fall out with related results, end related. -/
theorem run_simulation {body' : Nat → σ' → Step σ' ρ'} {exit' : σ' → ρ'}
    (R : Nat → σ → σ' → Prop) (Q : ρ → ρ' → Prop) (n i i' : Nat) {s : σ} {s' : σ'}
    (hs : R 0 s s')
    (hbody : ∀ k, k < n → ∀ t t', R k t t' →
      Step.Related (R (k + 1)) Q (body (i + k) t) (body' (i' + k) t'))
    (hexit : ∀ t t', R n t t' → Q (exit t) (exit' t')) :
    Q (run body exit n i s) (run body' exit' n i' s') := by
  induction n generalizing i i' s s' R with
  | zero => exact hexit s s' hs
  | succ n ih =>
    have h := hbody 0 (Nat.succ_pos n) s s' hs
    simp only [Nat.add_zero] at h
    cases hb : body i s with
    | leave r =>
      cases hb' : body' i' s' with
      | again _ => simp [hb, hb', Step.Related] at h
      | leave r' =>
        rw [run_leave n hb, run_leave n hb']
        simpa [hb, hb', Step.Related] using h
    | again t =>
      cases hb' : body' i' s' with
      | leave _ => simp [hb, hb', Step.Related] at h
      | again t' =>
        rw [run_again n hb, run_again n hb']
        have ht : R 1 t t' := by simpa [hb, hb', Step.Related] using h
        refine ih (fun k => R (k + 1)) (i + 1) (i' + 1) ht ?_ hexit
        intro k hk u u' hr
        have := hbody (k + 1) (by omega) u u' hr
        rwa [show i + (k + 1) = i + 1 + k by omega,
          show i' + (k + 1) = i' + 1 + k by omega] at this

end Loop
