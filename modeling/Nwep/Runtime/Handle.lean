/-
The native handles of an owner thread, counted: whether the library handed one out, and how often it
was closed. `Custody` says what the owner should have done with a handle by some statement, and the
lemmas follow a handle from one statement to the next.
-/
import Mathlib.Logic.Function.Basic

namespace Nwep.Runtime

/-- A native handle: whether it was obtained, and its explicit closes. -/
structure Handle where
  obtained : Bool
  closes : Nat
deriving Repr, DecidableEq

/-- An `aclose` or `shutdown` call: it asks for the stop, then joins the owner thread. -/
inductive CloseCall where
  | idle
  | stopping
  | joining
  | returned
  | cancelled
deriving Repr, DecidableEq

/-- The close calls agree with the owner: none began before the result was published, and each that
returned did so after the owner ended. -/
structure Joined (closers : Nat → CloseCall) (published finished : Prop) : Prop where
  published : ∀ i, closers i ≠ .idle → published
  finished : ∀ i, closers i = .returned → finished

namespace Joined

variable {closers : Nat → CloseCall} {pub fin pub' fin' : Prop}

theorem idle : Joined (fun _ => .idle) pub fin := ⟨fun _ h => absurd rfl h, fun _ h => by cases h⟩

theorem mono (hj : Joined closers pub fin) (hp : pub → pub') (hf : fin → fin') : Joined closers pub' fin' :=
  ⟨fun i hi => hp (hj.published i hi), fun i hi => hf (hj.finished i hi)⟩

/-- A call moves on: it returns only when the owner has ended. -/
theorem update {c : CloseCall} (hj : Joined closers pub fin) (i : Nat) (hp : pub) (hf : c = .returned → fin) :
    Joined (Function.update closers i c) pub fin := by
  refine ⟨fun _ _ => hp, fun j hr => ?_⟩
  by_cases hji : j = i
  · subst hji
    rw [Function.update_self] at hr; exact hf hr
  · rw [Function.update_of_ne hji] at hr; exact hj.finished j hr

end Joined

namespace Handle

def none : Handle := ⟨false, 0⟩

def acquire (h : Handle) : Handle := { h with obtained := true }

def close (h : Handle) : Handle := { h with closes := h.closes + 1 }

/-- Obtained and not closed. -/
def Live (h : Handle) : Prop := h.obtained = true ∧ h.closes = 0

/-- Closed exactly once if obtained, else never. -/
def Released (h : Handle) : Prop := h.closes = if h.obtained then 1 else 0

instance (h : Handle) : Decidable h.Live := inferInstanceAs (Decidable (_ ∧ _))
instance (h : Handle) : Decidable h.Released := inferInstanceAs (Decidable (_ = _))

end Handle

/-! ## Custody -/

/-- What the owner did with a handle: not opened it yet, opened it, or is done with it. -/
inductive Custody where
  | unopened
  | opened
  | done
deriving Repr, DecidableEq

namespace Handle

variable {h : Handle}

def As (h : Handle) : Custody → Prop
  | .unopened => h = none
  | .opened => h = none.acquire
  | .done => h.Released

theorem As.acquire (hu : h.As .unopened) : h.acquire.As .opened := by
  rw [show h = none from hu]; rfl

theorem As.close (ho : h.As .opened) : h.close.As .done := by
  rw [show h = none.acquire from ho]; rfl

/-- A handle that was never opened needs no close. -/
theorem As.skip (hu : h.As .unopened) : h.As .done := by
  rw [show h = none from hu]; rfl

theorem As.live (ho : h.As .opened) : h.Live := by
  rw [show h = none.acquire from ho]; exact ⟨rfl, rfl⟩

theorem Live.not_released (hl : h.Live) : ¬ h.Released := by
  intro hr
  unfold Released at hr
  rw [hl.1, hl.2] at hr; cases hr

/-- A handle that is not opened, or is done with, is not live. -/
theorem As.not_live {c : Custody} (ha : h.As c) (hc : c ≠ .opened) : ¬ h.Live := by
  intro hl
  cases c with
  | unopened => rw [show h = none from ha] at hl; cases hl.1
  | opened => exact hc rfl
  | done => exact hl.not_released ha

end Handle

end Nwep.Runtime
