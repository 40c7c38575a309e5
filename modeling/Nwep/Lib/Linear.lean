/-
Linearizable histories. Clients call an object, and a call may return with a reply; the object is a state, an
effect on it for each query, and the replies that are right in a state. A history is linearizable when its calls
can be put in an order, one at a time, in which each reply is right and a call that had returned before another
was made comes before it.

A system is shown linearizable by marking on its runs where each call takes effect: after it was made, once, and
before it returns with a reply that was right there.
-/
import Nwep.Lib.Observe
import Mathlib.Data.List.Induction
import Mathlib.Data.List.Nodup

namespace Lib

/-- A call with its query, the moment it takes effect, which the clients do not see, and its return. -/
inductive Event (ι Q A : Type*) where
  | call (i : ι) (q : Q)
  | effect (i : ι) (q : Q)
  | ret (i : ι) (a : A)

section Linear

variable {ι Q A T : Type*}

/-- The calls that took effect, in that order. -/
def effects (h : List (Event ι Q A)) : List (ι × Q) :=
  h.filterMap fun
    | .effect i q => some (i, q)
    | _ => none

@[simp] theorem effects_nil : effects ([] : List (Event ι Q A)) = [] := rfl

@[simp] theorem effects_append (h h' : List (Event ι Q A)) : effects (h ++ h') = effects h ++ effects h' :=
  List.filterMap_append

@[simp] theorem effects_call (i : ι) (q : Q) (h : List (Event ι Q A)) : effects (.call i q :: h) = effects h := rfl

@[simp] theorem effects_effect (i : ι) (q : Q) (h : List (Event ι Q A)) :
    effects (.effect i q :: h) = (i, q) :: effects h := rfl

@[simp] theorem effects_ret (i : ι) (a : A) (h : List (Event ι Q A)) : effects (.ret i a :: h) = effects h := rfl

/-- The call `i` had returned before the call `j` was made. -/
def Precedes (h : List (Event ι Q A)) (i j : ι) : Prop :=
  ∃ xs a ys q zs, h = xs ++ .ret i a :: ys ++ .call j q :: zs

variable (apply : T → Q → T) (right : T → Q → A → Prop) (t : T)

/-- The state of the object after the calls. -/
def stateAfter (l : List (ι × Q)) : T := l.foldl (fun t x => apply t x.2) t

/-- The calls of the history took effect in the order `l`. -/
structure Linearizes (h : List (Event ι Q A)) (l : List (ι × Q)) : Prop where
  once : (l.map Prod.fst).Nodup
  called : ∀ x ∈ l, .call x.1 x.2 ∈ h
  returned : ∀ i a, .ret i a ∈ h → ∃ xs q ys, l = xs ++ (i, q) :: ys ∧ right (stateAfter apply t xs) q a
  ordered : ∀ i j, Precedes h i j → j ∈ l.map Prod.fst →
    ∃ xs ys, l = xs ++ ys ∧ i ∈ xs.map Prod.fst ∧ j ∈ ys.map Prod.fst

/-- What a mark asks of the marks before it. -/
def Placed (pre : List (Event ι Q A)) : Event ι Q A → Prop
  | .call i _ => ∀ q, .call i q ∉ pre
  | .effect i q => .call i q ∈ pre ∧ i ∉ (effects pre).map Prod.fst
  | .ret i a => ∃ xs q ys, effects pre = xs ++ (i, q) :: ys ∧ right (stateAfter apply t xs) q a

variable {apply right t} {h : List (Event ι Q A)}

theorem stateAfter_concat (l : List (ι × Q)) (x : ι × Q) :
    stateAfter apply t (l ++ [x]) = apply (stateAfter apply t l) x.2 := by
  unfold stateAfter
  rw [List.foldl_append]; rfl

/-- Only calls that were made take effect, and each once. -/
theorem effects_placed (hp : Each (Placed apply right t) h) :
    ((effects h).map Prod.fst).Nodup ∧ ∀ x ∈ effects h, .call x.1 x.2 ∈ h := by
  induction h using List.reverseRecOn with
  | nil => exact ⟨List.nodup_nil, fun x hx => absurd hx List.not_mem_nil⟩
  | append_singleton h m ih =>
    obtain ⟨hpre, hm⟩ := each_concat.1 hp
    obtain ⟨honce, hcalled⟩ := ih hpre
    have hkept : ∀ x ∈ effects h, Event.call x.1 x.2 ∈ h ++ [m] := fun x hx => List.mem_append_left _ (hcalled x hx)
    cases m with
    | call i q | ret i a =>
      simp only [effects_append, effects_call, effects_ret, effects_nil, List.append_nil]
      exact ⟨honce, hkept⟩
    | effect i q =>
      obtain ⟨hcall, hnew⟩ := hm
      simp only [effects_append, effects_effect, effects_nil, List.map_append, List.map_cons, List.map_nil]
      constructor
      · refine List.nodup_append.2 ⟨honce, List.nodup_singleton i, ?_⟩
        rintro j hj k hk rfl
        rw [List.mem_singleton] at hk
        exact hnew (hk ▸ hj)
      · intro x hx
        rcases List.mem_append.1 hx with hx | hx
        · exact hkept x hx
        · obtain rfl := List.mem_singleton.1 hx
          exact List.mem_append_left _ hcall

/-- A call that is made later has not taken effect yet. -/
theorem effect_after_call {xs ys : List (Event ι Q A)} {j : ι} {q : Q}
    (hp : Each (Placed apply right t) (xs ++ .call j q :: ys)) : j ∉ (effects xs).map Prod.fst := by
  intro hj
  obtain ⟨x, hx, rfl⟩ := List.mem_map.1 hj
  have hcall := (effects_placed hp.front).2 x hx
  exact hp xs _ ys rfl x.2 hcall

/-- A history whose marks are all placed is linearizable, in the order of the effects. -/
theorem linearizes (hp : Each (Placed apply right t) h) : Linearizes apply right t h (effects h) where
  once := (effects_placed hp).1
  called := (effects_placed hp).2
  returned := by
    intro i a hret
    obtain ⟨xs, ys, rfl⟩ := List.append_of_mem hret
    obtain ⟨before, q, later, he, hright⟩ := hp xs _ ys rfl
    refine ⟨before, q, later ++ effects ys, ?_, hright⟩
    rw [effects_append, effects_ret, he, List.append_assoc, List.cons_append]
  ordered := by
    rintro i j ⟨xs, a, ys, q, zs, rfl⟩ hj
    refine ⟨effects (xs ++ .ret i a :: ys), effects (.call j q :: zs), effects_append _ _, ?_, ?_⟩
    · -- `i` took effect before it returned
      have hret : Each (Placed apply right t) (xs ++ .ret i a :: ys) := hp.front
      obtain ⟨before, q', later, he, -⟩ := hret xs _ ys rfl
      rw [effects_append, he]; simp
    · rw [effects_append, List.map_append, List.mem_append] at hj
      exact hj.resolve_left (effect_after_call hp)

end Linear

end Lib
