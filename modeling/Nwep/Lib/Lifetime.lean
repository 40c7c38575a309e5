/-
Handles that are freed once and must not be used afterwards, read off a log of calls: which calls
free the handle, which ones use it, and the rules that reduce "no use after the free" and "freed as often
as handed out" on a whole run to a condition on its single steps.
-/
import Nwep.Lib.Run
import Mathlib.Data.List.Pairwise

namespace Lib

section Lifetime

variable {τ : Type*} (frees uses : τ → Prop)

/-- Some call of the log frees the handle. -/
def Freed (l : List τ) : Prop := ∃ c ∈ l, frees c

/-- No call of the log uses the handle after one that frees it. -/
def NoStale (l : List τ) : Prop := l.Pairwise fun a b => frees a → ¬ uses b

instance [DecidablePred frees] (l : List τ) : Decidable (Freed frees l) :=
  inferInstanceAs (Decidable (∃ c ∈ l, frees c))

instance [DecidablePred frees] [DecidablePred uses] (l : List τ) : Decidable (NoStale frees uses l) :=
  inferInstanceAs (Decidable (l.Pairwise _))

variable {frees uses} {l cs : List τ}

theorem not_freed_nil : ¬ Freed frees ([] : List τ) := by
  rintro ⟨c, hc, -⟩; cases hc

theorem freed_append : Freed frees (l ++ cs) ↔ Freed frees l ∨ Freed frees cs := by
  unfold Freed
  simp only [List.mem_append, or_and_right, exists_or]

theorem freed_singleton {c : τ} : Freed frees [c] ↔ frees c := by
  unfold Freed
  simp only [List.mem_singleton, exists_eq_left]

theorem noStale_nil : NoStale frees uses ([] : List τ) := List.Pairwise.nil

theorem noStale_singleton (c : τ) : NoStale frees uses [c] := List.pairwise_singleton _ c

/-- Calls none of which frees the handle. -/
theorem noStale_of_not_freed (h : ¬ Freed frees cs) : NoStale frees uses cs :=
  List.Pairwise.imp_of_mem (fun ha _ _ hf => (h ⟨_, ha, hf⟩).elim) (List.pairwise_of_forall fun _ _ => trivial)

/-- Calls none of which uses the handle. -/
theorem noStale_of_not_used (h : ∀ c ∈ cs, ¬ uses c) : NoStale frees uses cs :=
  List.Pairwise.imp_of_mem (fun _ hb _ _ => h _ hb) (List.pairwise_of_forall fun _ _ => trivial)

/-- Appended calls are checked among themselves, and against a free that came before. -/
theorem noStale_append : NoStale frees uses (l ++ cs) ↔
    NoStale frees uses l ∧ NoStale frees uses cs ∧ (Freed frees l → ∀ c ∈ cs, ¬ uses c) := by
  unfold NoStale Freed
  rw [List.pairwise_append]
  constructor
  · rintro ⟨h1, h2, h3⟩
    exact ⟨h1, h2, fun ⟨a, ha, hf⟩ c hc => h3 a ha c hc hf⟩
  · rintro ⟨h1, h2, h3⟩
    exact ⟨h1, h2, fun a ha c hc hf => h3 ⟨a, ha, hf⟩ c hc⟩

/-- Where freeing is a use, a handle is freed at most once. -/
theorem NoStale.count [DecidablePred frees] (hu : ∀ c, frees c → uses c) (h : NoStale frees uses l) :
    l.countP (frees ·) ≤ 1 := by
  induction l with
  | nil => exact Nat.zero_le _
  | cons a l ih =>
    obtain ⟨ha, hl⟩ := List.pairwise_cons.1 h
    by_cases hf : frees a
    · have hnone : l.countP (frees ·) = 0 := by
        rw [List.countP_eq_zero]
        intro c hc
        rw [decide_eq_true_eq]
        exact fun hfc => ha c hc hf (hu c hfc)
      have hone := List.countP_cons_of_pos (p := (frees ·)) (a := a) (l := l) (by simpa using hf)
      omega
    · rw [List.countP_cons_of_neg (by simpa using hf)]
      exact ih hl

theorem freed_iff_count [DecidablePred frees] : Freed frees l ↔ 0 < l.countP (frees ·) := by
  rw [List.countP_pos_iff]
  unfold Freed
  simp only [decide_eq_true_eq]

end Lifetime

section Run

variable {σ α τ : Type*} {step : σ → α → Option σ} {frees uses : τ → Prop}

/-- A system that appends to its log: each step's calls are in order among themselves, and once the
handle is freed they leave it alone exactly when the step meets `C`. Then nothing on a run is stale
if and only if every step behind the free meets `C`. -/
theorem runs_noStale {L : σ → List τ} {I : σ → Prop} {C : σ → α → Prop}
    (hinv : ∀ s a s', I s → step s a = some s' → I s')
    (hstep : ∀ s a s', I s → step s a = some s' → ∃ cs, L s' = L s ++ cs ∧ NoStale frees uses cs ∧
      (Freed frees (L s) → ((∀ c ∈ cs, ¬ uses c) ↔ C s a)))
    {as : List α} {s t : σ} (hs : I s) (h : runs step s as = some t) :
    NoStale frees uses (L t) ↔
      NoStale frees uses (L s) ∧ Meets step (fun s a => Freed frees (L s) → C s a) s as := by
  refine runs_iff (P := fun s => NoStale frees uses (L s)) hinv (fun s a s' hi h => ?_) as hs h
  obtain ⟨cs, hl, hcs, hC⟩ := hstep s a s' hi h
  rw [hl, noStale_append]
  constructor
  · rintro ⟨h1, -, h3⟩
    exact ⟨h1, fun hf => (hC hf).1 (h3 hf)⟩
  · rintro ⟨h1, h3⟩
    exact ⟨h1, hcs, fun hf => (hC hf).2 (h3 hf)⟩

/-- A system that accounts for its handles: each one handed out was freed, was lost, or is held. Once none is
held, each was freed as often as it was handed out if and only if every step met `C`, which is what
loses none. -/
theorem runs_freed {κ : Type*} {handed freed lost held : σ → κ → ℕ} {I : σ → Prop} {C : σ → α → Prop}
    (hinv : ∀ s a s', I s → step s a = some s' → I s')
    (hI : ∀ s, I s → ∀ x, handed s x = freed s x + lost s x + held s x)
    (hstep : ∀ s a s', I s → step s a = some s' → ((∀ x, lost s' x = 0) ↔ (∀ x, lost s x = 0) ∧ C s a))
    {as : List α} {s t : σ} (hs : I s) (h0 : ∀ x, lost s x = 0) (h : runs step s as = some t) (hh : ∀ x, held t x = 0) :
    (∀ x, freed t x = handed t x) ↔ Meets step C s as := by
  have hlost : (∀ x, lost t x = 0) ↔ Meets step C s as := by
    rw [runs_iff (P := fun s => ∀ x, lost s x = 0) hinv hstep as hs h]
    exact and_iff_right h0
  have ht := hI t (runs_inv hinv as hs h)
  rw [← hlost]
  constructor
  · intro hf x
    have := ht x
    rw [hf x, hh x] at this
    omega
  · intro hf x
    rw [ht x, hf x, hh x]
    omega

end Run

end Lib
