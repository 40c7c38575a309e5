/-
What a run shows from outside: a step may show one observation, and the observations of a run are
listed in the order of its steps. A fact about what was shown so far and the state reached is proved
step by step, and a simulation takes the observations of one system to a run of another, or says which
steps keep them from being one.
-/
import Nwep.Lib.Run

namespace Lib

section Observe

variable {σ α β τ : Type*} (step : σ → α → Option σ) (shows : σ → α → Option β)

/-- The observations of the run along `as`. -/
def observed : σ → List α → List β
  | _, [] => []
  | s, a :: as => (shows s a).toList ++ match step s a with
    | some s' => observed s' as
    | none => []

variable {step shows}

theorem observed_append {s t : σ} : ∀ {as : List α} (bs : List α), runs step s as = some t →
    observed step shows s (as ++ bs) = observed step shows s as ++ observed step shows t bs
  | [], bs, h => by cases h; rfl
  | a :: as, bs, h => by
    obtain ⟨s', h1, h2⟩ := runs_cons_some step h
    simp only [List.cons_append, observed, h1]
    rw [observed_append bs h2, List.append_assoc]

/-- One more step shows at most one thing more. -/
theorem observed_concat {s t u : σ} {as : List α} {a : α} (h : runs step s as = some t) (ha : step t a = some u) :
    observed step shows s (as ++ [a]) = observed step shows s as ++ (shows t a).toList := by
  rw [observed_append [a] h]
  simp only [observed, ha, List.append_nil]

/-- What holds at the start, and at each step of a run from there goes over to the run with that step
added, holds after every run. -/
theorem runs_history {s₀ : σ} {J : List α → σ → Prop} (hinit : J [] s₀)
    (hstep : ∀ pre s a s', runs step s₀ pre = some s → J pre s → step s a = some s' → J (pre ++ [a]) s')
    {as : List α} {t : σ} (h : runs step s₀ as = some t) : J as t := by
  have hrule : ∀ pre s a s', (runs step s₀ pre = some s ∧ J pre s) → step s a = some s' →
      runs step s₀ (pre ++ [a]) = some s' ∧ J (pre ++ [a]) s' := by
    rintro pre s a s' ⟨hr, hj⟩ hs
    exact ⟨runs_append step hr (runs_one step hs), hstep pre s a s' hr hj hs⟩
  exact (runs_trace hrule [] as ⟨rfl, hinit⟩ h).2

/-- What holds of what was shown so far and the state, where every step meeting `C` keeps it. -/
theorem meets_observed {C : σ → α → Prop} {K : List β → σ → Prop}
    (hstep : ∀ tr s a s', K tr s → C s a → step s a = some s' → K (tr ++ (shows s a).toList) s') :
    ∀ (as : List α) {tr : List β} {s t : σ}, K tr s → Meets step C s as → runs step s as = some t →
      K (tr ++ observed step shows s as) t
  | [], tr, s, t, hk, _, h => by
    cases h
    rw [observed, List.append_nil]; exact hk
  | a :: as, tr, s, t, hk, hm, h => by
    obtain ⟨s', h1, h2⟩ := runs_cons_some step h
    have htail := meets_observed hstep as (hstep tr s a s' hk hm.1 h1) (hm.tail h1) h2
    simp only [observed, h1]
    rwa [List.append_assoc] at htail

/-- A simulation with gaps: where the steps meeting `C`, and no others, show what the specification can do from a
related state, the observations of a run are a run of the specification if and only if all its steps meet `C`. -/
theorem observed_runs_iff {spec : τ → β → Option τ} {R : σ → τ → Prop} {C : σ → α → Prop}
    (hstep : ∀ s x a s', R s x → step s a = some s' → C s a → ∃ x', runs spec x (shows s a).toList = some x' ∧ R s' x')
    (hstuck : ∀ s x a s', R s x → step s a = some s' → ¬ C s a → runs spec x (shows s a).toList = none) :
    ∀ (as : List α) {s s' : σ} {x : τ}, R s x → runs step s as = some s' →
      ((∃ x', runs spec x (observed step shows s as) = some x') ↔ Meets step C s as)
  | [], _, _, x, _, _ => iff_of_true ⟨x, rfl⟩ trivial
  | a :: as, s, s', x, hr, h => by
    obtain ⟨s₁, h1, h2⟩ := runs_cons_some step h
    by_cases hc : C s a
    · obtain ⟨x₁, h3, h4⟩ := hstep s x a s₁ hr h1 hc
      have hmeets : Meets step C s (a :: as) ↔ Meets step C s₁ as :=
        ⟨fun hm => hm.tail h1, fun hm => ⟨hc, by rw [h1]; exact hm⟩⟩
      rw [hmeets, ← observed_runs_iff hstep hstuck as h4 h2]
      simp only [observed, h1]
      constructor
      · rintro ⟨x', hx⟩
        obtain ⟨x₂, h5, h6⟩ := runs_append_some spec hx
        cases h3.symm.trans h5
        exact ⟨x', h6⟩
      · rintro ⟨x', hx⟩
        exact ⟨x', runs_append spec h3 hx⟩
    · refine iff_of_false ?_ fun hm => hc hm.1
      rintro ⟨x', hx⟩
      rw [observed] at hx
      obtain ⟨x₁, h3, -⟩ := runs_append_some spec hx
      rw [hstuck s x a s₁ hr h1 hc] at h3
      cases h3

/-- Each item of the list is as the ones before it require. -/
def Each (P : List β → β → Prop) (l : List β) : Prop := ∀ xs x ys, l = xs ++ x :: ys → P xs x

variable {P : List β → β → Prop} {l : List β}

theorem each_nil : Each P ([] : List β) := fun xs x ys h => absurd h (by simp)

/-- A front of such a list is one. -/
theorem Each.front {xs ys : List β} (h : Each P (xs ++ ys)) : Each P xs := by
  intro zs x ws he
  refine h zs x (ws ++ ys) ?_
  rw [he, List.append_assoc, List.cons_append]

theorem Each.concat {x : β} (h : Each P l) (hx : P l x) : Each P (l ++ [x]) := by
  intro xs y ys he
  rcases List.eq_nil_or_concat ys with rfl | ⟨zs, z, rfl⟩
  · obtain ⟨rfl, hy⟩ := List.append_inj' he rfl
    rw [← List.singleton_inj.1 hy]; exact hx
  · rw [List.concat_eq_append, ← List.cons_append, ← List.append_assoc] at he
    obtain ⟨hl, -⟩ := List.append_inj' he rfl
    exact h xs y zs hl

theorem each_concat {x : β} : Each P (l ++ [x]) ↔ Each P l ∧ P l x :=
  ⟨fun h => ⟨h.front, h l x [] rfl⟩, fun h => h.1.concat h.2⟩

end Observe

end Lib
