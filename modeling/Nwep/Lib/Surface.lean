/-
Errors that a library reports by what its calls return, in a program that raises. They surface when none is
passed over and none is made up: a call that reports an error is the program's last one, and the program raises
just that error; whatever else it raises is an exception of another sort.
-/
import Nwep.Lib.Foreign

namespace Lib

section Surface

variable {ε κ ρ σ α β : Type}

/-- How a run with these calls may end. -/
inductive Ends (told : κ × ρ → Option ε) (sort : ε → Prop) : List (κ × ρ) → EStateM.Result ε (World κ ρ σ) α → Prop
  | ok {cs : List (κ × ρ)} {a : α} {v : World κ ρ σ} : (∀ c ∈ cs, told c = none) → Ends told sort cs (.ok a v)
  | other {cs : List (κ × ρ)} {e : ε} {v : World κ ρ σ} : (∀ c ∈ cs, told c = none) → ¬ sort e →
      Ends told sort cs (.error e v)
  | told {cs : List (κ × ρ)} {c : κ × ρ} {e : ε} {v : World κ ρ σ} : (∀ d ∈ cs, told d = none) → told c = some e →
      Ends told sort (cs ++ [c]) (.error e v)

/-- On every run, what the library reports is raised, and no other exception of the sort. -/
def Surfaces (told : κ × ρ → Option ε) (sort : ε → Prop) (x : EStateM ε (World κ ρ σ) α) : Prop :=
  ∀ w, ∃ cs, (after x w).log = w.log ++ cs ∧ Ends told sort cs (x w)

variable {told : κ × ρ → Option ε} {sort : ε → Prop} {x : EStateM ε (World κ ρ σ) α} {f : α → EStateM ε (World κ ρ σ) β}

theorem Ends.before {cs ds : List (κ × ρ)} {r : EStateM.Result ε (World κ ρ σ) α} (hcs : ∀ c ∈ cs, told c = none)
    (h : Ends told sort ds r) : Ends told sort (cs ++ ds) r := by
  have hall : ∀ es : List (κ × ρ), (∀ c ∈ es, told c = none) → ∀ c ∈ cs ++ es, told c = none := fun es hes c hc =>
    (List.mem_append.1 hc).elim (hcs c) (hes c)
  cases h with
  | ok hds => exact .ok (hall _ hds)
  | other hds he => exact .other (hall _ hds) he
  | told hds hc =>
    rw [← List.append_assoc]
    exact .told (hall _ hds) hc

theorem Surfaces.pure (a : α) : Surfaces told sort (pure a : EStateM ε (World κ ρ σ) α) := fun _ =>
  ⟨[], (List.append_nil _).symm, .ok fun _ hc => absurd hc List.not_mem_nil⟩

theorem Surfaces.throw {e : ε} (h : ¬ sort e) : Surfaces told sort (throw e : EStateM ε (World κ ρ σ) α) := fun _ =>
  ⟨[], (List.append_nil _).symm, .other (fun _ hc => absurd hc List.not_mem_nil) h⟩

theorem Surfaces.get : Surfaces told sort (get : EStateM ε (World κ ρ σ) (World κ ρ σ)) := fun _ =>
  ⟨[], (List.append_nil _).symm, .ok fun _ hc => absurd hc List.not_mem_nil⟩

theorem Surfaces.modify {g : World κ ρ σ → World κ ρ σ} (h : ∀ w, (g w).log = w.log) :
    Surfaces told sort (modify g : EStateM ε (World κ ρ σ) PUnit) := fun w =>
  ⟨[], (h w).trans (List.append_nil _).symm, .ok fun _ hc => absurd hc List.not_mem_nil⟩

theorem Surfaces.bind (hx : Surfaces told sort x) (hf : ∀ a, Surfaces told sort (f a)) :
    Surfaces told sort (x >>= f) := by
  intro w
  obtain ⟨cs, hlog, hends⟩ := hx w
  cases hr : x w with
  | ok a v =>
    rw [hr] at hends
    rw [after_ok hr] at hlog
    obtain ⟨ds, hlog', hends'⟩ := hf a v
    refine ⟨cs ++ ds, ?_, ?_⟩
    · rw [after_bind_ok hr, hlog', hlog, List.append_assoc]
    · rw [bind_of_ok hr]
      cases hends with
      | ok hcs => exact hends'.before hcs
  | error e v =>
    rw [hr] at hends
    rw [after_error hr] at hlog
    refine ⟨cs, by rw [after_bind_error hr]; exact hlog, ?_⟩
    rw [bind_of_error hr]
    cases hends with
    | other hcs he => exact .other hcs he
    | told hcs hc => exact .told hcs hc

/-- After a call the program goes on, or raises at once what the call reported. -/
theorem Surfaces.call {c : κ} {g : ρ → EStateM ε (World κ ρ σ) β}
    (hgo : ∀ r, told (c, r) = none → Surfaces told sort (g r))
    (hraise : ∀ r e, told (c, r) = some e → ∀ w, ∃ v, g r w = .error e v ∧ v.log = w.log) :
    Surfaces told sort (Lib.call c >>= g) := by
  intro w
  have hlog := World.called_log w c
  rw [bind_of_ok (call_ok c w), after_bind_ok (call_ok c w)]
  cases ht : told (c, w.ret w.log.length) with
  | none =>
    obtain ⟨ds, hds, hends⟩ := hgo _ ht (w.called c)
    refine ⟨(c, w.ret w.log.length) :: ds, ?_, ?_⟩
    · rw [hds, hlog, List.append_assoc, List.singleton_append]
    · have hquiet : ∀ d ∈ [(c, w.ret w.log.length)], told d = none := fun d hd => by
        rw [List.mem_singleton.1 hd]; exact ht
      exact hends.before hquiet
  | some e =>
    obtain ⟨v, hv, hl⟩ := hraise _ e ht (w.called c)
    refine ⟨[(c, w.ret w.log.length)], ?_, ?_⟩
    · rw [after_error hv, hl, hlog]
    · rw [hv]
      have hquiet : ∀ d ∈ ([] : List (κ × ρ)), told d = none := fun d hd => absurd hd List.not_mem_nil
      exact .told hquiet ht

/-- Nothing is called after a call that reports an error. -/
theorem Surfaces.last (h : Surfaces told sort x) (w : World κ ρ σ) : ∀ c ∈ (callsOf x w).dropLast, told c = none := by
  obtain ⟨cs, hlog, hends⟩ := h w
  have hcalls : callsOf x w = cs := by
    unfold callsOf
    rw [hlog, List.drop_left]
  rw [hcalls]
  generalize x w = r at hends
  cases hends with
  | ok hcs | other hcs => exact fun c hc => hcs c ((List.dropLast_sublist cs).subset hc)
  | told hds => rw [List.dropLast_concat]; exact hds

/-- An exception of the sort is raised if and only if a call reported it. -/
theorem Surfaces.raises_iff (h : Surfaces told sort x) (hsort : ∀ c e, told c = some e → sort e) (P : ε → Prop)
    (w : World κ ρ σ) :
    (∃ e v, x w = .error e v ∧ sort e ∧ P e) ↔ ∃ c ∈ callsOf x w, ∃ e, told c = some e ∧ P e := by
  obtain ⟨cs, hlog, hends⟩ := h w
  have hcalls : callsOf x w = cs := by
    unfold callsOf
    rw [hlog, List.drop_left]
  rw [hcalls]
  have hnone : ∀ {ds : List (κ × ρ)}, (∀ c ∈ ds, told c = none) → ¬ ∃ c ∈ ds, ∃ e, told c = some e ∧ P e := by
    rintro ds hds ⟨c, hc, e, he, -⟩
    rw [hds c hc] at he; cases he
  generalize x w = r at hends
  cases hends with
  | ok hcs => exact iff_of_false (fun ⟨_, _, hr, _⟩ => by cases hr) (hnone hcs)
  | other hcs hne => exact iff_of_false (fun ⟨_, _, hr, he, _⟩ => by cases hr; exact hne he) (hnone hcs)
  | @told ds c e v hds hc =>
    constructor
    · rintro ⟨e', v', hr, -, hp⟩
      cases hr
      exact ⟨c, by simp, e, hc, hp⟩
    · rintro ⟨d, hd, e', he', hp⟩
      rcases List.mem_append.1 hd with hd | hd
      · rw [hds d hd] at he'; cases he'
      · rw [List.mem_singleton.1 hd, hc] at he'
        cases he'
        exact ⟨e, v, rfl, hsort c e hc, hp⟩

end Surface

end Lib
