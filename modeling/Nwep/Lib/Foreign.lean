/-
Programs that can raise, run over some state and call into a foreign library: the state survives a
raise, every library call is logged with what it returned, and what the library returns is an
oracle indexed by the number of calls made before.

`Along R x` says that every run of `x`, whether it returns or raises, moves the state along `R`.
-/
import Mathlib.Order.Defs.Unbundled
import Mathlib.Data.List.Forall2

namespace Lib

section Raise

variable {ε σ α β : Type}

/-- The state a run of `x` leaves behind. -/
def after (x : EStateM ε σ α) (s : σ) : σ :=
  match x s with
  | .ok _ t => t
  | .error _ t => t

theorem after_ok {x : EStateM ε σ α} {s t : σ} {a : α} (h : x s = .ok a t) : after x s = t := by
  unfold after; rw [h]

theorem after_error {x : EStateM ε σ α} {s t : σ} {e : ε} (h : x s = .error e t) : after x s = t := by
  unfold after; rw [h]

/-! ## Sequencing -/

theorem bind_of_ok {x : EStateM ε σ α} {s t : σ} {a : α} (h : x s = .ok a t) (f : α → EStateM ε σ β) :
    (x >>= f) s = f a t := by
  show EStateM.bind x f s = _
  unfold EStateM.bind; rw [h]

theorem bind_of_error {x : EStateM ε σ α} {s t : σ} {e : ε} (h : x s = .error e t) (f : α → EStateM ε σ β) :
    (x >>= f) s = .error e t := by
  show EStateM.bind x f s = _
  unfold EStateM.bind; rw [h]

theorem after_pure (a : α) (s : σ) : after (pure a : EStateM ε σ α) s = s := rfl

theorem after_map (f : α → β) (x : EStateM ε σ α) (s : σ) : after (f <$> x) s = after x s := by
  show after (EStateM.map f x) s = _
  unfold after EStateM.map
  cases x s <;> rfl

theorem after_bind_pure (f : α → β) (x : EStateM ε σ α) (s : σ) : after (x >>= fun a => pure (f a)) s = after x s := by
  show after (EStateM.bind x _) s = _
  unfold after EStateM.bind
  cases x s <;> rfl

theorem after_bind_ok {x : EStateM ε σ α} {s t : σ} {a : α} (h : x s = .ok a t) (f : α → EStateM ε σ β) :
    after (x >>= f) s = after (f a) t := by
  unfold after; rw [bind_of_ok h]

theorem after_bind_error {x : EStateM ε σ α} {s t : σ} {e : ε} (h : x s = .error e t) (f : α → EStateM ε σ β) :
    after (x >>= f) s = t := after_error (bind_of_error h f)

theorem tryCatch_of_ok {x : EStateM ε σ α} {s t : σ} {a : α} (h : x s = .ok a t) (f : ε → EStateM ε σ α) :
    (tryCatch x f) s = .ok a t := by
  show EStateM.tryCatch x f s = _
  unfold EStateM.tryCatch; rw [h]

theorem tryCatch_of_error {x : EStateM ε σ α} {s t : σ} {e : ε} (h : x s = .error e t) (f : ε → EStateM ε σ α) :
    (tryCatch x f) s = f e t := by
  show EStateM.tryCatch x f s = _
  unfold EStateM.tryCatch; rw [h]; rfl

theorem get_bind (f : σ → EStateM ε σ α) (s : σ) : (get >>= f) s = f s s := rfl

theorem bind_ok {x : EStateM ε σ α} {f : α → EStateM ε σ β} {s t : σ} {b : β} (h : (x >>= f) s = .ok b t) :
    ∃ a u, x s = .ok a u ∧ f a u = .ok b t := by
  cases hx : x s with
  | ok a u => rw [bind_of_ok hx] at h; exact ⟨a, u, rfl, h⟩
  | error e u => rw [bind_of_error hx] at h; cases h

theorem map_of_ok {x : EStateM ε σ α} {s t : σ} {a : α} (h : x s = .ok a t) (f : α → β) :
    (f <$> x) s = .ok (f a) t := by
  show EStateM.map f x s = _
  unfold EStateM.map; rw [h]

theorem map_of_error {x : EStateM ε σ α} {s t : σ} {e : ε} (h : x s = .error e t) (f : α → β) :
    (f <$> x) s = .error e t := by
  show EStateM.map f x s = _
  unfold EStateM.map; rw [h]

theorem map_ok {x : EStateM ε σ α} {f : α → β} {s t : σ} {b : β} (h : (f <$> x) s = .ok b t) :
    ∃ a, x s = .ok a t ∧ f a = b := by
  change EStateM.map f x s = _ at h
  unfold EStateM.map at h
  split at h
  · rename_i a u hx
    cases h; exact ⟨a, hx, rfl⟩
  · cases h

/-- What a successful `mapM` made of each item. -/
theorem mapM_ok {f : α → Except ε β} : ∀ {l : List α} {r : List β}, l.mapM f = .ok r →
    List.Forall₂ (fun a b => f a = .ok b) l r
  | [], r, h => by
    rw [List.mapM_nil] at h
    cases h; exact .nil
  | a :: l, r, h => by
    rw [List.mapM_cons] at h
    cases ha : f a with
    | error e => rw [ha] at h; cases h
    | ok b =>
      cases hl : l.mapM f with
      | error e => rw [ha, hl] at h; cases h
      | ok bs => rw [ha, hl] at h; cases h; exact .cons ha (mapM_ok hl)

theorem mapM_ok_mem {f : α → Except ε β} {l : List α} {r : List β} (h : l.mapM f = .ok r) :
    ∀ a ∈ l, ∃ b, f a = .ok b := by
  have hall := mapM_ok h
  clear h
  induction hall with
  | nil => exact fun a ha => (by cases ha)
  | cons hb _ ih =>
    intro a ha
    rcases List.mem_cons.1 ha with rfl | ha
    · exact ⟨_, hb⟩
    · exact ih a ha

/-- A function that maps what it does not refuse by `g`. -/
theorem mapM_ok_map {f : α → Except ε β} {g : α → β} (hf : ∀ a b, f a = .ok b → g a = b) {l : List α} {r : List β}
    (h : l.mapM f = .ok r) : r = l.map g := by
  have hall : List.Forall₂ (fun a b => g a = b) l r := (mapM_ok h).imp hf
  rw [← List.forall₂_map_left_iff, List.forall₂_eq_eq_eq] at hall
  exact hall.symm

theorem mapM_id_ok {l : List (Except ε β)} {r : List β} (h : l.mapM id = .ok r) : l = r.map .ok := by
  have hall : List.Forall₂ (fun a b => a = .ok b) l r := mapM_ok h
  rwa [← List.forall₂_map_right_iff, List.forall₂_eq_eq_eq] at hall

/-- What a failed `mapM` raised is what it raised at some item. -/
theorem mapM_error {f : α → Except ε β} {e : ε} : ∀ {l : List α}, l.mapM f = .error e → ∃ a ∈ l, f a = .error e
  | [], h => by
    rw [List.mapM_nil] at h
    cases h
  | a :: l, h => by
    rw [List.mapM_cons] at h
    cases ha : f a with
    | error e' => rw [ha] at h; cases h; exact ⟨a, List.mem_cons_self, ha⟩
    | ok b =>
      cases hl : l.mapM f with
      | error e' =>
        rw [ha, hl] at h; cases h
        obtain ⟨c, hc, he⟩ := mapM_error hl
        exact ⟨c, List.mem_cons_of_mem _ hc, he⟩
      | ok bs => rw [ha, hl] at h; cases h

/-! ## Runs along a relation -/

theorem mapM_isOk {f : α → Except ε β} {l : List α} : (∃ r, l.mapM f = .ok r) ↔ ∀ a ∈ l, ∃ b, f a = .ok b := by
  refine ⟨fun ⟨_, h⟩ => mapM_ok_mem h, fun hall => ?_⟩
  cases h : l.mapM f with
  | ok r => exact ⟨r, rfl⟩
  | error e =>
    obtain ⟨a, ha, hf⟩ := mapM_error h
    obtain ⟨b, hb⟩ := hall a ha
    cases hf.symm.trans hb

/-- Every run of `x` moves the state along `R`. -/
def Along (R : σ → σ → Prop) (x : EStateM ε σ α) : Prop := ∀ s, R s (after x s)

variable {R : σ → σ → Prop}

theorem Along.pure [Std.Refl R] (a : α) : Along R (pure a : EStateM ε σ α) := fun s => Std.Refl.refl s

theorem Along.throw [Std.Refl R] (e : ε) : Along R (throw e : EStateM ε σ α) := fun s => Std.Refl.refl s

theorem Along.get [Std.Refl R] : Along R (get : EStateM ε σ σ) := fun s => Std.Refl.refl s

theorem Along.modify {f : σ → σ} (h : ∀ s, R s (f s)) : Along R (modify f : EStateM ε σ PUnit) := h

theorem Along.bind [IsTrans σ R] {x : EStateM ε σ α} {f : α → EStateM ε σ β} (hx : Along R x)
    (hf : ∀ a, Along R (f a)) : Along R (x >>= f) := by
  intro s
  have h := hx s
  cases hr : x s with
  | ok a t =>
    rw [after_ok hr] at h
    have h' := hf a t
    unfold after at h' ⊢
    rw [bind_of_ok hr]
    exact IsTrans.trans _ _ _ h h'
  | error e t =>
    rw [after_error hr] at h
    rw [after_error (bind_of_error hr f)]
    exact h

/-- What comes after `x` moves the state on along `R`, if it runs at all. -/
theorem Along.after_bind [Std.Refl R] {x : EStateM ε σ α} {f : α → EStateM ε σ β} (hf : ∀ a, Along R (f a)) (s : σ) :
    R (after x s) (after (x >>= f) s) := by
  cases hr : x s with
  | ok a t => rw [after_ok hr, after_bind_ok hr]; exact hf a t
  | error e t => rw [after_error hr, after_bind_error hr]; exact Std.Refl.refl t

theorem Along.map {x : EStateM ε σ α} (hx : Along R x) (f : α → β) : Along R (f <$> x) := by
  intro s
  have h := hx s
  show R s (after (EStateM.map f x) s)
  unfold after EStateM.map at *
  cases hr : x s with
  | ok a t => rw [hr] at h; exact h
  | error e t => rw [hr] at h; exact h

theorem Along.mapM [Std.Refl R] [IsTrans σ R] {f : α → EStateM ε σ β} (hf : ∀ a, Along R (f a)) :
    ∀ l : List α, Along R (l.mapM f)
  | [] => by rw [List.mapM_nil]; exact Along.pure _
  | a :: l => by
    rw [List.mapM_cons]
    exact (hf a).bind fun _ => (Along.mapM hf l).bind fun _ => Along.pure _

/-- Whatever `x` returns is in `Q`. -/
def Yields (Q : α → Prop) (x : EStateM ε σ α) : Prop := ∀ s a t, x s = .ok a t → Q a

variable {Q : α → Prop}

theorem Yields.pure {a : α} (h : Q a) : Yields Q (pure a : EStateM ε σ α) := by
  intro s b t hr
  cases hr; exact h

theorem Yields.throw (e : ε) : Yields Q (throw e : EStateM ε σ α) := by
  intro s b t hr
  cases hr

theorem Yields.bind {x : EStateM ε σ β} {f : β → EStateM ε σ α} (hf : ∀ b, Yields Q (f b)) : Yields Q (x >>= f) := by
  intro s a t hr
  obtain ⟨b, u, -, h⟩ := bind_ok hr
  exact hf b u a t h

end Raise

/-! ## Calls into a library -/

/-- The program's own objects `objs`, what the library's `n`-th call returns, and the calls made. -/
structure World (κ ρ σ : Type) where
  objs : σ
  ret : Nat → ρ
  log : List (κ × ρ)

section Foreign

variable {ε κ ρ σ α β : Type}

/-- The state after the library call `c`. -/
def World.called (w : World κ ρ σ) (c : κ) : World κ ρ σ := { w with log := w.log ++ [(c, w.ret w.log.length)] }

theorem World.called_log (w : World κ ρ σ) (c : κ) : (w.called c).log = w.log ++ [(c, w.ret w.log.length)] := rfl

/-- One library call. -/
def call (c : κ) : EStateM ε (World κ ρ σ) ρ := fun w => .ok (w.ret w.log.length) (w.called c)

theorem call_ok (c : κ) (w : World κ ρ σ) :
    (call c : EStateM ε (World κ ρ σ) ρ) w = .ok (w.ret w.log.length) (w.called c) := rfl

/-- The calls of a run of `x`. -/
def callsOf (x : EStateM ε (World κ ρ σ) α) (w : World κ ρ σ) : List (κ × ρ) := (after x w).log.drop w.log.length

theorem callsOf_error {x : EStateM ε (World κ ρ σ) α} {w : World κ ρ σ} {e : ε} (h : x w = .error e w) :
    callsOf x w = [] := by
  unfold callsOf
  rw [after_error h, List.drop_length]

theorem callsOf_called {x : EStateM ε (World κ ρ σ) α} {w : World κ ρ σ} {c : κ} (h : after x w = w.called c) :
    callsOf x w = [(c, w.ret w.log.length)] := by
  unfold callsOf
  rw [h, World.called_log, List.drop_left]

theorem callsOf_called_called {x : EStateM ε (World κ ρ σ) α} {w : World κ ρ σ} {c d : κ}
    (h : after x w = (w.called c).called d) :
    callsOf x w = [(c, w.ret w.log.length), (d, w.ret (w.log.length + 1))] := by
  unfold callsOf
  rw [h, World.called_log, World.called_log, List.append_assoc, List.drop_left, List.length_append]
  rfl

theorem callsOf_bind_ok {x : EStateM ε (World κ ρ σ) α} {f : α → EStateM ε (World κ ρ σ) β} {w v : World κ ρ σ} {a : α}
    (h : x w = .ok a v) (hl : v.log = w.log) : callsOf (x >>= f) w = callsOf (f a) v := by
  unfold callsOf
  rw [after_bind_ok h, hl]

theorem callsOf_bind_error {x : EStateM ε (World κ ρ σ) α} {f : α → EStateM ε (World κ ρ σ) β} {w v : World κ ρ σ}
    {e : ε} (h : x w = .error e v) (hl : v.log = w.log) : callsOf (x >>= f) w = [] := by
  unfold callsOf
  rw [after_bind_error h, hl, List.drop_length]

theorem callsOf_bind_pure (f : α → β) (x : EStateM ε (World κ ρ σ) α) (w : World κ ρ σ) :
    callsOf (x >>= fun a => pure (f a)) w = callsOf x w := by
  unfold callsOf
  rw [after_bind_pure]

theorem callsOf_map (f : α → β) (x : EStateM ε (World κ ρ σ) α) (w : World κ ρ σ) :
    callsOf (f <$> x) w = callsOf x w := by
  unfold callsOf
  rw [after_map]

/-- From `w` the program raises before any call, or makes exactly one, and that one in `P`. -/
def OneCall (P : κ → Prop) (x : EStateM ε (World κ ρ σ) α) (w : World κ ρ σ) : Prop :=
  (∃ e, x w = .error e w) ∨ ∃ c, P c ∧ callsOf x w = [(c, w.ret w.log.length)]

section OneCall

variable {P : κ → Prop} {x : EStateM ε (World κ ρ σ) α} {f : α → EStateM ε (World κ ρ σ) β} {w : World κ ρ σ}

theorem OneCall.throw (e : ε) : OneCall P (throw e : EStateM ε (World κ ρ σ) α) w := .inl ⟨e, rfl⟩

theorem OneCall.of_after {c : κ} (h : after x w = w.called c) (hc : P c) : OneCall P x w :=
  .inr ⟨c, hc, callsOf_called h⟩

theorem OneCall.bind_of_error {e : ε} (h : x w = .error e w) : OneCall P (x >>= f) w := .inl ⟨e, Lib.bind_of_error h f⟩

theorem OneCall.bind_of_ok {a : α} (h : x w = .ok a w) (hf : OneCall P (f a) w) : OneCall P (x >>= f) w := by
  unfold OneCall callsOf after at *
  rw [Lib.bind_of_ok h]
  exact hf

theorem OneCall.mem (h : OneCall P x w) {c : κ × ρ} (hc : c ∈ callsOf x w) : P c.1 := by
  rcases h with ⟨e, he⟩ | ⟨d, hd, hcalls⟩
  · rw [callsOf_error he] at hc; cases hc
  · rw [hcalls, List.mem_singleton] at hc
    rw [hc]; exact hd

end OneCall

/-- `v` is `w` some calls later, each of them in `P`. -/
def Calls (P : κ × ρ → Prop) (w v : World κ ρ σ) : Prop :=
  ∃ cs, v.log = w.log ++ cs ∧ ∀ c ∈ cs, P c

instance (P : κ × ρ → Prop) : Std.Refl (Calls P : World κ ρ σ → World κ ρ σ → Prop) where
  refl w := ⟨[], by simp, by simp⟩

instance (P : κ × ρ → Prop) : IsTrans (World κ ρ σ) (Calls P) where
  trans := by
    rintro u v w ⟨cs, hv, hcs⟩ ⟨ds, hw, hds⟩
    refine ⟨cs ++ ds, by rw [hw, hv, List.append_assoc], fun c hc => ?_⟩
    rcases List.mem_append.1 hc with h | h
    · exact hcs c h
    · exact hds c h

end Foreign

end Lib
