/-
Programs that read and write a state of their own and call into a library, as trees, and the machine
that runs them with reentrancy: inside a call the library may run a hook, and a hook runs programs.

A program is `Safe` for `P` when `P` holds at each of its calls and at its end, where a call that may host
a hook comes back to any state in `P`. When every program started is safe, `P` holds in every state but
those between two calls of a program.
-/
import Nwep.Lib.Foreign
import Nwep.Lib.Run

namespace Lib

/-! ## Scripts -/

/-- A program with library calls `κ`, replies `ρ` and a state `σ` of its own. -/
inductive Script (κ ρ σ β : Type) where
  | ret (b : β)
  | look (k : σ → Script κ ρ σ β)
  | put (f : σ → σ) (t : Script κ ρ σ β)
  | call (c : κ) (k : ρ → Script κ ρ σ β)

/-- The script as a program that is not interrupted. -/
def Script.prog {ε κ ρ σ α : Type} : Script κ ρ σ (Except ε α) → EStateM ε (World κ ρ σ) α
  | ret (.ok a) => pure a
  | ret (.error e) => throw e
  | look k => do (k (← get).objs).prog
  | put f t => do
    modify fun w => { w with objs := f w.objs }
    t.prog
  | call c k => do (k (← Lib.call c)).prog

namespace Reentry

/-! ## The machine -/

/-- The library's side: what a reply makes of its state, and in which calls it may run a hook. -/
structure Library (κ ρ τ : Type) where
  reply : κ → ρ → τ → τ
  fires : κ → τ → Bool

inductive Frame (κ ρ σ β : Type) where
  | run (t : Script κ ρ σ β)
  | waits (c : κ) (k : ρ → Script κ ρ σ β) -- inside a library call
  | hook

structure State (κ ρ σ τ β : Type) where
  mine : σ
  theirs : τ
  frames : List (Frame κ ρ σ β)

/-- The label of a step: a program is started, makes its next step, or has its call answered; a hook
is fired inside a call, or left. -/
inductive Act (ω ρ : Type) where
  | start (op : ω)
  | go
  | reply (r : ρ)
  | fire
  | leave

variable {κ ρ σ τ β ω : Type} (L : Library κ ρ τ) (script : ω → Script κ ρ σ β)

def step (s : State κ ρ σ τ β) : Act ω ρ → Option (State κ ρ σ τ β)
  | .start op =>
    match s.frames with
    | [] => some { s with frames := [.run (script op)] }
    | .hook :: fs => some { s with frames := .run (script op) :: .hook :: fs }
    | _ => none
  | .go =>
    match s.frames with
    | .run (.ret _) :: fs => some { s with frames := fs }
    | .run (.look k) :: fs => some { s with frames := .run (k s.mine) :: fs }
    | .run (.put f t) :: fs => some { s with mine := f s.mine, frames := .run t :: fs }
    | .run (.call c k) :: fs => some { s with frames := .waits c k :: fs }
    | _ => none
  | .reply r =>
    match s.frames with
    | .waits c k :: fs => some { s with theirs := L.reply c r s.theirs, frames := .run (k r) :: fs }
    | _ => none
  | .fire =>
    match s.frames with
    | .waits c k :: fs =>
      if L.fires c s.theirs = true then some { s with frames := .hook :: .waits c k :: fs } else none
    | _ => none
  | .leave =>
    match s.frames with
    | .hook :: fs => some { s with frames := fs }
    | _ => none

/-- At a library call, inside one, or with no program under way. -/
def State.observed (s : State κ ρ σ τ β) : Bool :=
  match s.frames with
  | .run (.call _ _) :: _ => true
  | .run _ :: _ => false
  | _ => true

/-! ## Safe programs -/

variable (P : σ → τ → Prop) (mayReply : κ → ρ → σ → τ → Prop) (mayStart : ω → σ → τ → Prop)

/-- The library may run a hook inside the call. -/
def Library.Hosts (c : κ) : Prop := ∃ y, L.fires c y = true

/-- `P` holds at each call of the program and at its end, for the replies that `mayReply` allows. -/
def Safe : Script κ ρ σ β → σ → τ → Prop
  | .ret _, x, y => P x y
  | .look k, x, y => Safe (k x) x y
  | .put f t, x, y => Safe t (f x) y
  | .call c k, x, y => P x y ∧ ∀ r x' y', (x' = x ∧ y' = y ∨ L.Hosts c ∧ P x' y') → mayReply c r x' y' →
    Safe (k r) x' (L.reply c r y')

/-- A frame that comes on top again in some state in `P`. -/
def Below : Frame κ ρ σ β → Prop
  | .run _ => False
  | .waits c k => ∀ r x y, P x y → mayReply c r x y → Safe L P mayReply (k r) x (L.reply c r y)
  | .hook => True

def Ok (s : State κ ρ σ τ β) : Prop :=
  match s.frames with
  | [] => P s.mine s.theirs
  | .run t :: fs => Safe L P mayReply t s.mine s.theirs ∧ ∀ f ∈ fs, Below L P mayReply f
  | .waits c k :: fs => Safe L P mayReply (.call c k) s.mine s.theirs ∧ ∀ f ∈ fs, Below L P mayReply f
  | .hook :: fs => P s.mine s.theirs ∧ ∀ f ∈ fs, Below L P mayReply f

/-- Every program started and every reply are allowed. -/
def Allowed (s : State κ ρ σ τ β) : Act ω ρ → Prop
  | .start op => mayStart op s.mine s.theirs
  | .reply r =>
    match s.frames with
    | .waits c _ :: _ => mayReply c r s.mine s.theirs
    | _ => True
  | _ => True

instance [∀ c r x y, Decidable (mayReply c r x y)] [∀ op x y, Decidable (mayStart op x y)]
    (s : State κ ρ σ τ β) : ∀ a, Decidable (Allowed mayReply mayStart s a)
  | .start op => inferInstanceAs (Decidable (mayStart op _ _))
  | .reply r => match hf : s.frames with
    | .waits c _ :: _ => decidable_of_iff (mayReply c r s.mine s.theirs) (by simp [Allowed, hf])
    | [] | .run _ :: _ | .hook :: _ => .isTrue (by simp [Allowed, hf])
  | .go | .fire | .leave => inferInstanceAs (Decidable True)

variable {L script P mayReply mayStart} {s s' : State κ ρ σ τ β} {a : Act ω ρ} {c : κ} {k : ρ → Script κ ρ σ β}
  {x : σ} {y : τ}

/-- A call that may host a hook. -/
theorem safe_call (hp : P x y)
    (h : ∀ r x' y', P x' y' → mayReply c r x' y' → Safe L P mayReply (k r) x' (L.reply c r y')) :
    Safe L P mayReply (.call c k) x y := by
  refine ⟨hp, fun r x' y' hxy hr => ?_⟩
  rcases hxy with ⟨rfl, rfl⟩ | ⟨-, hp'⟩
  · exact h r _ _ hp hr
  · exact h r x' y' hp' hr

/-- A call that hosts none comes back to the state that it was made in. -/
theorem safe_call_of_not_hosts (hc : ¬ L.Hosts c) (hp : P x y)
    (h : ∀ r, mayReply c r x y → Safe L P mayReply (k r) x (L.reply c r y)) : Safe L P mayReply (.call c k) x y := by
  refine ⟨hp, fun r x' y' hxy hr => ?_⟩
  obtain ⟨rfl, rfl⟩ := hxy.resolve_right fun hh => hc hh.1
  exact h r hr

/-- A program has ended, or a hook is left, in a state in `P`. -/
theorem ok_of_below {fs : List (Frame κ ρ σ β)} (hp : P x y) (hb : ∀ f ∈ fs, Below L P mayReply f) :
    Ok L P mayReply ⟨x, y, fs⟩ := by
  cases fs with
  | nil => exact hp
  | cons f fs =>
    have hf := hb f List.mem_cons_self
    have hfs : ∀ f ∈ fs, Below L P mayReply f := fun g hg => hb g (List.mem_cons_of_mem _ hg)
    cases f with
    | run t => exact hf.elim
    | hook => exact ⟨hp, hfs⟩
    | waits c k => exact ⟨safe_call hp hf, hfs⟩

theorem Ok.observed (ho : Ok L P mayReply s) (h : s.observed = true) : P s.mine s.theirs := by
  obtain ⟨x, y, _ | ⟨f, fs⟩⟩ := s
  · exact ho
  · cases f with
    | hook => exact ho.1
    | waits c k => exact ho.1.1
    | run t =>
      cases t with
      | call c k => exact ho.1.1
      | ret | look | put => cases h

/-- A program is started with none under way, or by a hook. -/
theorem start_spec {op : ω} (h : step L script s (.start op) = some s') :
    s.observed = true ∧ s' = { s with frames := .run (script op) :: s.frames } := by
  obtain ⟨x, y, frames⟩ := s
  simp only [step] at h
  split at h
  · cases h; exact ⟨rfl, rfl⟩
  · cases h; exact ⟨rfl, rfl⟩
  · cases h

theorem ok_step (hsafe : ∀ op x y, P x y → mayStart op x y → Safe L P mayReply (script op) x y)
    (ho : Ok L P mayReply s) (hc : Allowed mayReply mayStart s a) (h : step L script s a = some s') :
    Ok L P mayReply s' := by
  obtain ⟨x, y, frames⟩ := s
  cases a with
  | start op =>
    simp only [step] at h
    split at h
    · cases h
      exact ⟨hsafe op x y ho hc, by simp⟩
    · cases h
      exact ⟨hsafe op x y ho.1 hc, List.forall_mem_cons.2 ⟨trivial, ho.2⟩⟩
    · cases h
  | go =>
    simp only [step] at h
    split at h
    · cases h
      exact ok_of_below ho.1 ho.2
    · cases h; exact ho
    · cases h; exact ho
    · cases h; exact ho
    · cases h
  | reply r =>
    simp only [step] at h
    split at h
    · cases h
      exact ⟨ho.1.2 r x y (.inl ⟨rfl, rfl⟩) hc, ho.2⟩
    · cases h
  | fire =>
    simp only [step] at h
    split at h
    · split at h
      · rename_i hfire
        cases h
        -- the call comes on top again in whatever state in `P` the hook leaves
        refine ⟨ho.1.1, List.forall_mem_cons.2 ⟨fun r x' y' hp hr => ?_, ho.2⟩⟩
        exact ho.1.2 r x' y' (.inr ⟨⟨y, hfire⟩, hp⟩) hr
      · cases h
    · cases h
  | leave =>
    simp only [step] at h
    split at h
    · cases h
      exact ok_of_below ho.1 ho.2
    · cases h

/-- Left alone, a script leaves behind what its program does, and the library has replied to the calls that
the program logged. -/
theorem runs_alone {ε α : Type} {script : ω → Script κ ρ σ (Except ε α)} (t : Script κ ρ σ (Except ε α))
    (fs : List (Frame κ ρ σ (Except ε α))) : ∀ (w : World κ ρ σ) (y : τ), ∃ as cs,
      (after t.prog w).log = w.log ++ cs ∧ runs (step L script) ⟨w.objs, y, .run t :: fs⟩ as =
        some ⟨(after t.prog w).objs, cs.foldl (fun y c => L.reply c.1 c.2 y) y, fs⟩ := by
  induction t with
  | ret b =>
    intro w y
    have hw : after (Script.ret b : Script κ ρ σ (Except ε α)).prog w = w := by cases b <;> rfl
    rw [hw]
    exact ⟨[.go], [], (List.append_nil _).symm, rfl⟩
  | look k ih =>
    intro w y
    obtain ⟨as, cs, hl, h⟩ := ih w.objs w y
    exact ⟨.go :: as, cs, hl, h⟩
  | put f t ih =>
    intro w y
    obtain ⟨as, cs, hl, h⟩ := ih { w with objs := f w.objs } y
    exact ⟨.go :: as, cs, hl, h⟩
  | call c k ih =>
    intro w y
    obtain ⟨as, cs, hl, h⟩ := ih (w.ret w.log.length) (w.called c) (L.reply c (w.ret w.log.length) y)
    refine ⟨.go :: .reply (w.ret w.log.length) :: as, (c, w.ret w.log.length) :: cs, ?_, h⟩
    rw [World.called_log, List.append_assoc] at hl
    exact hl

/-- On a run that starts only allowed programs and gets only allowed replies, `P` holds whenever the
library runs or no program is under way. -/
theorem observed_of_meets (hsafe : ∀ op x y, P x y → mayStart op x y → Safe L P mayReply (script op) x y)
    {as : List (Act ω ρ)} (hi : Ok L P mayReply s) (hm : Meets (step L script) (Allowed mayReply mayStart) s as)
    (h : runs (step L script) s as = some s') (ho : s'.observed = true) : P s'.mine s'.theirs :=
  (meets_inv (fun _ _ _ hi hc h => ok_step hsafe hi hc h) as hi hm h).observed ho

end Reentry

end Lib
