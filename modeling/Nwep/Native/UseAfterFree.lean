/-
Use after free on one object: every public method of a class with a `_check_open` raises before the
library sees the freed handle, and the ones without that check hand it over.
-/
import Nwep.Native.Effect

namespace Nwep.Native

open Lib

variable {ε : Type} {w : Wrapper} {v v' : Heap} {k : Cls}

/-- One operation on the object, whatever it returns or raises. -/
def step (w : Wrapper) (v : Heap) (o : Op ε k) : Option Heap := some (after (o.1.run k w) v)

/-- A new object, and what the library will return. -/
def Heap.init (ret : Nat → Ret) : Heap := ⟨fun _ => {}, ret, []⟩

/-- An object whose handle was freed is closed. -/
def ClosedOnceFreed (k : Cls) (w : Wrapper) (v : Heap) : Prop :=
  Freed (Frees k.kind w.handle) v.log → isClosed w v = true

theorem closedOnceFreed_step {o : Op ε k} (hi : ClosedOnceFreed k w v) (hs : step w v o = some v') :
    ClosedOnceFreed k w v' := by
  cases hs
  obtain ⟨⟨cs, hl, hb⟩, hstay⟩ := o.2.effect w v
  intro h
  rw [hl, freed_append] at h
  rcases h with h | h
  · exact hstay w (hi h)
  · exact hb.closes h

/-- Behind the free only operations that look at the closed flag, or whose parameters do not convert. -/
def Guarded (w : Wrapper) (v : Heap) (o : Op ε k) : Prop :=
  Freed (Frees k.kind w.handle) v.log → o.1.guarded = true ∨ ¬ o.1.Converts w v

/-- On a closed object exactly these do not act. -/
theorem not_acts_iff {b : Body ε} (h : isClosed w v = true) : ¬ b.Acts w v ↔ b.guarded = true ∨ ¬ b.Converts w v := by
  rw [Body.not_acts, and_iff_left h]

/-- For every class and every sequence of public operations on one object, no library call receives
the handle after it was freed if and only if no unguarded operation with convertible parameters comes
after the free. -/
theorem no_use_after_free {ret : Nat → Ret} {ops : List (Op ε k)} (h : runs (step w) (.init ret) ops = some v) :
    NoStale (Frees k.kind w.handle) (Uses k.kind w.handle) v.log ↔ Meets (step w) (Guarded w) (.init ret) ops := by
  have hinit : ClosedOnceFreed k w (.init ret) := fun hf => (not_freed_nil hf).elim
  rw [runs_noStale (L := World.log) (I := ClosedOnceFreed k w) (C := fun v o => o.1.guarded = true ∨ ¬ o.1.Converts w v)
    (fun _ _ _ => closedOnceFreed_step) (fun s o s' hi hs => ?_) hinit h]
  · exact ⟨fun hm => hm.2, fun hm => ⟨noStale_nil, hm⟩⟩
  · cases hs
    obtain ⟨⟨cs, hl, hb⟩, -⟩ := o.2.effect w s
    refine ⟨cs, hl, hb.order, fun hf => ?_⟩
    rw [← not_acts_iff (hi hf), ← hb.uses]
    exact ⟨fun h ⟨c, hc, hu⟩ => h c hc hu, fun h c hc hu => h ⟨c, hc, hu⟩⟩

/-- A library that returns 0 for every call. -/
def zero (_ : Nat) : Ret := ⟨0, 0, []⟩

/-- A log appended to, closed and read again. -/
def closedLog : List (Op Unit .log) := [⟨_, .logAppend (.ok [1])⟩, ⟨_, .close _⟩, ⟨_, .logSize⟩]

theorem no_use_after_free_log : ∃ v, runs (step ⟨0, 7⟩) (.init zero) closedLog = some v ∧
    NoStale (Frees .log 7) (Uses .log 7) v.log := by
  have h : runs (step ⟨0, 7⟩) (.init zero) closedLog = some _ := rfl
  exact ⟨_, h, (no_use_after_free h).2 ⟨fun _ => .inl rfl, fun _ => .inl rfl, fun _ => .inl rfl, trivial⟩⟩

/-- `Response.status` makes no check: after the close it reads the freed message. -/
theorem status_after_close : ∃ v,
    runs (step ⟨0, 7⟩) (.init zero) ([⟨_, .close _⟩, ⟨_, .responseStatus⟩] : List (Op Unit .response)) = some v ∧
    v.log.map Prod.fst = [⟨.messageFree, 7, []⟩, ⟨.messageGetStatus, 7, []⟩] ∧
    ¬ NoStale (Frees .message 7) (Uses .message 7) v.log :=
  ⟨_, rfl, rfl, by decide⟩

end Nwep.Native
