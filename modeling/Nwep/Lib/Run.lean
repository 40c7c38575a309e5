/-
Runs of a labelled transition system given by a partial step function, and the rules that turn
a fact about single steps into a fact about whole runs: for every run, for the runs whose steps
all meet a condition on the state before them, and for the runs in which some step does not.
-/
import Mathlib.Logic.Basic
import Mathlib.Data.List.Basic

namespace Lib

section Run

variable {σ α : Type*} (step : σ → α → Option σ)

/-- The state after the labels `as`, when each of their steps is possible. -/
def runs (s : σ) (as : List α) : Option σ := as.foldlM step s

theorem runs_cons (s : σ) (a : α) (as : List α) :
    runs step s (a :: as) = (step s a).bind (runs step · as) := rfl

theorem runs_cons_some {s t : σ} {a : α} {as : List α} (h : runs step s (a :: as) = some t) :
    ∃ s', step s a = some s' ∧ runs step s' as = some t := by
  rw [runs_cons] at h
  exact Option.bind_eq_some_iff.1 h

theorem runs_one {s t : σ} {a : α} (h : step s a = some t) : runs step s [a] = some t := by
  rw [runs_cons, h]; rfl

theorem runs_append {s t u : σ} {as bs : List α} (h : runs step s as = some t) (h' : runs step t bs = some u) :
    runs step s (as ++ bs) = some u := by
  unfold runs at *
  rw [List.foldlM_append, h]; exact h'

theorem runs_append_some {s u : σ} {as bs : List α} (h : runs step s (as ++ bs) = some u) :
    ∃ t, runs step s as = some t ∧ runs step t bs = some u := by
  unfold runs at *
  rw [List.foldlM_append] at h
  exact Option.bind_eq_some_iff.1 h

/-- Every step of the run along `as` meets `C` in the state before it. -/
def Meets (C : σ → α → Prop) : σ → List α → Prop
  | _, [] => True
  | s, a :: as => C s a ∧ match step s a with
    | some s' => Meets C s' as
    | none => True

def Meets.decide {C : σ → α → Prop} [∀ s a, Decidable (C s a)] : ∀ s as, Decidable (Meets step C s as)
  | _, [] => .isTrue trivial
  | s, a :: as => @instDecidableAnd (C s a) _ _ (match step s a with
    | some s' => Meets.decide s' as
    | none => .isTrue trivial)

instance {C : σ → α → Prop} [∀ s a, Decidable (C s a)] (s : σ) (as : List α) : Decidable (Meets step C s as) :=
  Meets.decide step s as

variable {step} {C : σ → α → Prop} {I : σ → Prop}

theorem Meets.tail {s s' : σ} {a : α} {as : List α} (h : Meets step C s (a :: as))
    (hs : step s a = some s') : Meets step C s' as := by
  have := h.2
  rw [hs] at this; exact this

theorem Meets.mono {D : σ → α → Prop} (hcd : ∀ s a, C s a → D s a) :
    ∀ {s : σ} {as : List α}, Meets step C s as → Meets step D s as
  | _, [], _ => trivial
  | s, a :: as, h => by
    refine ⟨hcd s a h.1, ?_⟩
    have htail := h.2
    split at htail
    · exact htail.mono hcd
    · trivial

theorem meets_of_forall (h : ∀ s a, C s a) : ∀ (s : σ) (as : List α), Meets step C s as
  | _, [] => trivial
  | s, a :: as => by
    refine ⟨h s a, ?_⟩
    split
    · exact meets_of_forall h _ as
    · trivial

theorem Meets.upTo : ∀ {as bs : List α} {s : σ}, Meets step C s as → bs <+: as → Meets step C s bs
  | _, [], _, _, _ => trivial
  | [], b :: bs, _, _, hb => by cases List.prefix_nil.1 hb
  | a :: as, b :: bs, s, hm, hb => by
    obtain ⟨rfl, hbs⟩ := List.cons_prefix_cons.1 hb
    refine ⟨hm.1, ?_⟩
    have htail := hm.2
    split
    · rename_i s' hs
      rw [hs] at htail
      exact htail.upTo hbs
    · trivial

/-! ## Rules for whole runs -/

/-- What every step preserves, every run preserves. -/
theorem runs_inv (hstep : ∀ s a s', I s → step s a = some s' → I s') :
    ∀ (as : List α) {s t : σ}, I s → runs step s as = some t → I t
  | [], s, t, hi, h => by cases h; exact hi
  | a :: as, s, t, hi, h => by
    obtain ⟨s', h1, h2⟩ := runs_cons_some step h
    exact runs_inv hstep as (hstep s a s' hi h1) h2

/-- What every step meeting `C` preserves, every run whose steps all meet `C` preserves. -/
theorem meets_inv (hstep : ∀ s a s', I s → C s a → step s a = some s' → I s') :
    ∀ (as : List α) {s t : σ}, I s → Meets step C s as → runs step s as = some t → I t
  | [], s, t, hi, _, h => by cases h; exact hi
  | a :: as, s, t, hi, hm, h => by
    obtain ⟨s', h1, h2⟩ := runs_cons_some step h
    exact meets_inv hstep as (hstep s a s' hi hm.1 h1) (hm.tail h1) h2

/-- Two invariants that exclude nothing: while the steps meet `C` the run stays in `I`, and one
step that breaks `C` moves it to `B`, where it stays. -/
theorem meets_or_broken {B : σ → Prop} (hgood : ∀ s a s', I s → C s a → step s a = some s' → I s')
    (hbreak : ∀ s a s', I s → ¬ C s a → step s a = some s' → B s')
    (hbad : ∀ s a s', B s → step s a = some s' → B s') :
    ∀ (as : List α) {s t : σ}, I s → runs step s as = some t →
      (Meets step C s as ∧ I t) ∨ (¬ Meets step C s as ∧ B t)
  | [], s, t, hi, h => by cases h; exact .inl ⟨trivial, hi⟩
  | a :: as, s, t, hi, h => by
    obtain ⟨s', h1, h2⟩ := runs_cons_some step h
    by_cases hc : C s a
    · rcases meets_or_broken hgood hbreak hbad as (hgood s a s' hi hc h1) h2 with ⟨hm, ht⟩ | ⟨hm, ht⟩
      · exact .inl ⟨⟨hc, by rw [h1]; exact hm⟩, ht⟩
      · exact .inr ⟨fun hm' => hm (hm'.tail h1), ht⟩
    · exact .inr ⟨fun hm => hc hm.1, runs_inv hbad as (hbreak s a s' hi hc h1) h2⟩

/-- What every step keeps of the labels so far and the state, every run keeps. -/
theorem runs_trace {J : List α → σ → Prop} (hstep : ∀ pre s a s', J pre s → step s a = some s' → J (pre ++ [a]) s') :
    ∀ (pre as : List α) {s t : σ}, J pre s → runs step s as = some t → J (pre ++ as) t
  | pre, [], s, t, hj, h => by cases h; rwa [List.append_nil]
  | pre, a :: as, s, t, hj, h => by
    obtain ⟨s', h1, h2⟩ := runs_cons_some step h
    have := runs_trace hstep (pre ++ [a]) as (hstep pre s a s' hj h1) h2
    rwa [List.append_assoc, List.singleton_append] at this

/-- What every step meeting `C` keeps of the labels so far and the state, every run meeting `C` keeps. -/
theorem meets_trace {J : List α → σ → Prop}
    (hstep : ∀ pre s a s', J pre s → C s a → step s a = some s' → J (pre ++ [a]) s') :
    ∀ (pre as : List α) {s t : σ}, J pre s → Meets step C s as → runs step s as = some t → J (pre ++ as) t
  | pre, [], s, t, hj, _, h => by cases h; rwa [List.append_nil]
  | pre, a :: as, s, t, hj, hm, h => by
    obtain ⟨s', h1, h2⟩ := runs_cons_some step h
    have := meets_trace hstep (pre ++ [a]) as (hstep pre s a s' hj hm.1 h1) (hm.tail h1) h2
    rwa [List.append_assoc, List.singleton_append] at this

/-- Where no step may break `C` without a trace in the state it leaves, a run whose states all lack
that trace meets `C`. -/
theorem meets_of_prefixes {P : σ → Prop} (hbreak : ∀ s a s', ¬ C s a → step s a = some s' → ¬ P s') :
    ∀ (as : List α) {s t : σ}, runs step s as = some t →
      (∀ bs u, bs <+: as → runs step s bs = some u → P u) → Meets step C s as
  | [], _, _, _, _ => trivial
  | a :: as, s, t, h, hp => by
    obtain ⟨s', h1, h2⟩ := runs_cons_some step h
    have hc : C s a := by
      by_contra hc
      exact hbreak s a s' hc h1 (hp [a] s' (List.prefix_append [a] as) (runs_one step h1))
    refine ⟨hc, ?_⟩
    rw [h1]
    refine meets_of_prefixes hbreak as h2 fun bs u hb hr => hp (a :: bs) u ?_ ?_
    · exact List.cons_prefix_cons.2 ⟨rfl, hb⟩
    · rw [runs_cons, h1]; exact hr

/-- A property that each step keeps exactly when it meets `C`: it holds after the run if and only if
it held before and every step met `C`. -/
theorem runs_iff {P : σ → Prop} (hinv : ∀ s a s', I s → step s a = some s' → I s')
    (hstep : ∀ s a s', I s → step s a = some s' → (P s' ↔ P s ∧ C s a)) :
    ∀ (as : List α) {s t : σ}, I s → runs step s as = some t → (P t ↔ P s ∧ Meets step C s as)
  | [], s, t, _, h => by cases h; exact ⟨fun hp => ⟨hp, trivial⟩, fun hp => hp.1⟩
  | a :: as, s, t, hi, h => by
    obtain ⟨s', h1, h2⟩ := runs_cons_some step h
    rw [runs_iff hinv hstep as (hinv s a s' hi h1) h2, hstep s a s' hi h1]
    simp only [Meets, h1, and_assoc]

/-! ## Counting steps -/

/-- How many steps of the run along `as` the test `C` counts. -/
def count (step : σ → α → Option σ) (C : σ → α → Bool) : σ → List α → ℕ
  | _, [] => 0
  | s, a :: as => (if C s a then 1 else 0) + match step s a with
    | some s' => count step C s' as
    | none => 0

/-- A rank that every counted step lowers, and no other step raises, bounds the count. -/
theorem count_rank {L : σ → α → Bool} {R : σ → ℕ}
    (hstep : ∀ s a s', I s → C s a → step s a = some s' → I s' ∧ R s' + (if L s a then 1 else 0) ≤ R s) :
    ∀ (as : List α) {s t : σ}, I s → Meets step C s as → runs step s as = some t →
      I t ∧ count step L s as + R t ≤ R s
  | [], s, t, hi, _, h => by cases h; exact ⟨hi, by simp [count]⟩
  | a :: as, s, t, hi, hm, h => by
    obtain ⟨s', h1, h2⟩ := runs_cons_some step h
    obtain ⟨hi', hr⟩ := hstep s a s' hi hm.1 h1
    obtain ⟨ht, hc⟩ := count_rank hstep as hi' (hm.tail h1) h2
    refine ⟨ht, ?_⟩
    simp only [count, h1]
    omega

theorem count_append {L : σ → α → Bool} {s t : σ} :
    ∀ {as bs : List α}, runs step s as = some t → count step L s (as ++ bs) = count step L s as + count step L t bs
  | [], bs, h => by cases h; simp [count]
  | a :: as, bs, h => by
    obtain ⟨s', h1, h2⟩ := runs_cons_some step h
    simp only [List.cons_append, count, h1]
    rw [count_append h2]
    omega

/-! ## One party on its way out -/

/-- From `s` on, along every run whose steps meet `C`: no state is `bad`, the party whose labels are
`mine` makes at most `n` steps, and it can make its next one until `done`. -/
def Leaves (step : σ → α → Option σ) (C : σ → α → Prop) (mine : α → Bool) (bad done : σ → Prop) (n : ℕ) (s : σ) :
    Prop :=
  ∀ as t, Meets step C s as → runs step s as = some t →
    ¬ bad t ∧ as.countP mine ≤ n ∧ (done t ∨ ∃ a t', mine a = true ∧ step t a = some t')

/-- A rank that every step of the party lowers, and no other step raises, bounds its steps. -/
theorem runs_rank {mine : α → Bool} {rank : σ → ℕ}
    (hstep : ∀ s a s', I s → C s a → step s a = some s' → I s' ∧ rank s' + (if mine a then 1 else 0) ≤ rank s) :
    ∀ (as : List α) {s t : σ}, I s → Meets step C s as → runs step s as = some t →
      I t ∧ as.countP mine + rank t ≤ rank s
  | [], s, t, hi, _, h => by cases h; exact ⟨hi, by simp⟩
  | a :: as, s, t, hi, hm, h => by
    obtain ⟨s', h1, h2⟩ := runs_cons_some step h
    obtain ⟨hi', hr⟩ := hstep s a s' hi hm.1 h1
    obtain ⟨ht, hc⟩ := runs_rank hstep as hi' (hm.tail h1) h2
    refine ⟨ht, ?_⟩
    rw [List.countP_cons]
    omega

theorem leaves_of_rank (J : σ → Prop) (rank : σ → ℕ) {mine : α → Bool} {bad done : σ → Prop}
    (hstep : ∀ s a s', J s → C s a → step s a = some s' → J s' ∧ rank s' + (if mine a then 1 else 0) ≤ rank s)
    (hbad : ∀ s, J s → ¬ bad s) (hnext : ∀ s, J s → done s ∨ ∃ a s', mine a = true ∧ step s a = some s')
    {s : σ} (hs : J s) : Leaves step C mine bad done (rank s) s := by
  intro as t hm h
  obtain ⟨ht, hc⟩ := runs_rank hstep as hs hm h
  exact ⟨hbad t ht, by omega, hnext t ht⟩

/-! ## One party with work still coming in -/

/-- From `s` on, along every run: the party whose labels are `mine` makes at most `n` steps, and `k` more
for each step that brings in `work`, and it can make its next one until `done`. -/
def Concludes (step : σ → α → Option σ) (mine : α → Bool) (work : σ → α → Bool) (done : σ → Prop) (n k : ℕ) (s : σ) :
    Prop :=
  ∀ as t, runs step s as = some t →
    as.countP mine ≤ n + k * count step work s as ∧ (done t ∨ ∃ a t', mine a = true ∧ step t a = some t')

/-- A rank that every step of the party lowers, and that only work raises, by at most `k`, bounds its steps. -/
theorem runs_rank_work {mine : α → Bool} {work : σ → α → Bool} {rank : σ → ℕ} {k : ℕ}
    (hstep : ∀ s a s', I s → step s a = some s' →
      I s' ∧ rank s' + (if mine a then 1 else 0) ≤ rank s + if work s a then k else 0) :
    ∀ (as : List α) {s t : σ}, I s → runs step s as = some t →
      I t ∧ as.countP mine + rank t ≤ rank s + k * count step work s as
  | [], s, t, hi, h => by cases h; exact ⟨hi, by simp⟩
  | a :: as, s, t, hi, h => by
    obtain ⟨s', h1, h2⟩ := runs_cons_some step h
    obtain ⟨hi', hr⟩ := hstep s a s' hi h1
    obtain ⟨ht, hc⟩ := runs_rank_work hstep as hi' h2
    refine ⟨ht, ?_⟩
    simp only [List.countP_cons, count, h1, Nat.mul_add]
    by_cases hw : work s a = true
    · rw [if_pos hw] at hr ⊢
      omega
    · rw [if_neg hw] at hr ⊢
      omega

theorem concludes_of_rank (J : σ → Prop) (rank : σ → ℕ) {mine : α → Bool} {work : σ → α → Bool} {done : σ → Prop}
    {k : ℕ}
    (hstep : ∀ s a s', J s → step s a = some s' →
      J s' ∧ rank s' + (if mine a then 1 else 0) ≤ rank s + if work s a then k else 0)
    (hnext : ∀ s, J s → done s ∨ ∃ a s', mine a = true ∧ step s a = some s') {s : σ} (hs : J s) :
    Concludes step mine work done (rank s) k s := by
  intro as t h
  obtain ⟨ht, hc⟩ := runs_rank_work hstep as hs h
  exact ⟨by omega, hnext t ht⟩

end Run

end Lib
