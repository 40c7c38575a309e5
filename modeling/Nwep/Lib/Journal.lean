/-
A table and the journal of its changes: each change puts a value at a key or erases the key. What the table
holds at a key is what the last change of that key put there.
-/
import Mathlib.Data.List.Induction
import Mathlib.Logic.Function.Basic

namespace Lib

/-- One change: a value put at a key, or none for an erasure. -/
structure Change (κ ν : Type*) where
  key : κ
  value : Option ν
deriving Repr, DecidableEq

section Journal

variable {κ ν : Type*} [DecidableEq κ]

def Change.apply (c : Change κ ν) (t : κ → Option ν) : κ → Option ν := Function.update t c.key c.value

/-- The table after the changes. -/
def replay (cs : List (Change κ ν)) : κ → Option ν := cs.foldl (fun t c => c.apply t) fun _ => none

/-- The value was put at the key, and the key not changed since. -/
def Holds (cs : List (Change κ ν)) (k : κ) (v : ν) : Prop :=
  ∃ xs ys, cs = xs ++ ⟨k, some v⟩ :: ys ∧ ∀ c ∈ ys, c.key ≠ k

variable {cs : List (Change κ ν)} {c : Change κ ν} {k : κ} {v : ν}

@[simp] theorem replay_nil : replay ([] : List (Change κ ν)) = fun _ => none := rfl

@[simp] theorem replay_concat (cs : List (Change κ ν)) (c : Change κ ν) : replay (cs ++ [c]) = c.apply (replay cs) := by
  unfold replay
  rw [List.foldl_append]; rfl

theorem Change.apply_self (c : Change κ ν) (t : κ → Option ν) : c.apply t c.key = c.value := Function.update_self ..

theorem Change.apply_other (t : κ → Option ν) (h : k ≠ c.key) : c.apply t k = t k := Function.update_of_ne h ..

omit [DecidableEq κ] in
theorem not_holds_nil : ¬ Holds ([] : List (Change κ ν)) k v := by
  rintro ⟨xs, ys, h, -⟩
  exact absurd h (by simp)

omit [DecidableEq κ] in
/-- The last change decides, if it is one of the key. -/
theorem holds_concat_self : Holds (cs ++ [c]) c.key v ↔ c.value = some v := by
  constructor
  · rintro ⟨xs, ys, h, hlater⟩
    rcases List.eq_nil_or_concat ys with rfl | ⟨ys, d, rfl⟩
    · obtain ⟨-, hc⟩ := List.append_inj' h rfl
      obtain ⟨-, hv⟩ := (Change.mk.injEq ..).mp (List.singleton_inj.1 hc)
      exact hv
    · -- the key would have been changed again
      rw [List.concat_eq_append, ← List.cons_append, ← List.append_assoc] at h
      obtain ⟨-, hc⟩ := List.append_inj' h rfl
      have hne := hlater d (by simp)
      exact absurd (congrArg Change.key (List.singleton_inj.1 hc)).symm hne
  · intro h
    obtain ⟨key, value⟩ := c
    obtain rfl : value = some v := h
    exact ⟨cs, [], rfl, fun d hd => absurd hd List.not_mem_nil⟩

omit [DecidableEq κ] in
/-- A change of another key leaves it as it was. -/
theorem holds_concat_other (hk : c.key ≠ k) : Holds (cs ++ [c]) k v ↔ Holds cs k v := by
  constructor
  · rintro ⟨xs, ys, h, hlater⟩
    rcases List.eq_nil_or_concat ys with rfl | ⟨ys, d, rfl⟩
    · obtain ⟨-, hc⟩ := List.append_inj' h rfl
      exact absurd (congrArg Change.key (List.singleton_inj.1 hc)) hk
    · rw [List.concat_eq_append, ← List.cons_append, ← List.append_assoc] at h
      obtain ⟨hcs, -⟩ := List.append_inj' h rfl
      exact ⟨xs, ys, hcs, fun d' hd' => hlater d' (by simp [hd'])⟩
  · rintro ⟨xs, ys, rfl, hlater⟩
    refine ⟨xs, ys ++ [c], by simp, fun d hd => ?_⟩
    rcases List.mem_append.1 hd with hd | hd
    · exact hlater d hd
    · rw [List.mem_singleton.1 hd]; exact hk

omit [DecidableEq κ] in
/-- A key that only ever got one value holds it. -/
theorem holds_of_mem (h : ⟨k, some v⟩ ∈ cs) (hk : ∀ c ∈ cs, c.key = k → c.value = some v) : Holds cs k v := by
  induction cs using List.reverseRecOn with
  | nil => cases h
  | append_singleton cs c ih =>
    have hlast : c ∈ cs ++ [c] := List.mem_append_right _ List.mem_cons_self
    by_cases hc : c.key = k
    · have hv := hk c hlast hc
      subst hc
      exact holds_concat_self.2 hv
    · refine (holds_concat_other hc).2 (ih ?_ fun d hd => hk d (List.mem_append_left _ hd))
      rcases List.mem_append.1 h with h | h
      · exact h
      · rw [List.mem_singleton] at h
        exact absurd (h ▸ rfl) hc

/-- What the table holds at a key is what was put there last. -/
theorem replay_eq_some : replay cs k = some v ↔ Holds cs k v := by
  induction cs using List.reverseRecOn with
  | nil => exact iff_of_false (by simp) not_holds_nil
  | append_singleton cs c ih =>
    rw [replay_concat]
    by_cases hk : c.key = k
    · subst hk
      rw [c.apply_self, holds_concat_self]
    · rw [Change.apply_other _ (Ne.symm hk), ih, holds_concat_other hk]

theorem replay_eq_none : replay cs k = none ↔ ∀ v, ¬ Holds cs k v := by
  rw [Option.eq_none_iff_forall_ne_some]
  exact forall_congr' fun v => not_congr replay_eq_some

end Journal

end Lib
