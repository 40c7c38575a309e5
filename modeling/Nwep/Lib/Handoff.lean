/-
A one-shot hand-off between a thread that publishes one result and one waiting task: the shared
concurrent future, settled at most once, and the task, which ends by taking the result over, by
its exception, or by cancellation. A cancelled task cancels a future that is still pending; a
result published before the cancellation is dropped with the task.
-/
import Mathlib.Logic.Basic

namespace Lib

/-- A concurrent future: settled by its thread, or cancelled by its waiter. -/
inductive Ready (α ε : Type*) where
  | pending
  | cancelled
  | result (a : α)
  | failed (e : ε)
deriving Repr, DecidableEq

/-- The task that awaits the future. -/
inductive Task (α ε : Type*) where
  | waiting
  | returned (a : α)
  | raised (e : ε)
  | cancelled
deriving Repr, DecidableEq

structure Handoff (α ε : Type*) where
  ready : Ready α ε
  task : Task α ε
deriving Repr, DecidableEq

namespace Ready

variable {α ε : Type*}

/-- `set_result`: `none` stands for `InvalidStateError`, raised unless the future is pending. -/
def setResult (r : Ready α ε) (a : α) : Option (Ready α ε) :=
  match r with
  | .pending => some (.result a)
  | _ => none

/-- `set_exception`, refused like `set_result`. -/
def setException (r : Ready α ε) (e : ε) : Option (Ready α ε) :=
  match r with
  | .pending => some (.failed e)
  | _ => none

/-- `cancel`: a settled future stays as it is. -/
def cancel (r : Ready α ε) : Ready α ε :=
  match r with
  | .pending => .cancelled
  | r => r

theorem setResult_some {r r' : Ready α ε} {a : α} (h : r.setResult a = some r') :
    r = .pending ∧ r' = .result a := by
  cases r <;> simp_all [setResult]

theorem setResult_none {r : Ready α ε} {a : α} : r.setResult a = none ↔ r ≠ .pending := by
  cases r <;> simp [setResult]

theorem setException_some {r r' : Ready α ε} {e : ε} (h : r.setException e = some r') :
    r = .pending ∧ r' = .failed e := by
  cases r <;> simp_all [setException]

end Ready

namespace Handoff

variable {α ε : Type*}

def init : Handoff α ε := ⟨.pending, .waiting⟩

/-- The waiting task takes the settled future over; a cancelled future ends it as cancelled. -/
def resume (h : Handoff α ε) : Option (Handoff α ε) :=
  match h.task, h.ready with
  | .waiting, .result a => some { h with task := .returned a }
  | .waiting, .failed e => some { h with task := .raised e }
  | .waiting, .cancelled => some { h with task := .cancelled }
  | _, _ => none

/-- The waiting task is cancelled, and with it the future, unless that is settled. -/
def cancelTask (h : Handoff α ε) : Option (Handoff α ε) :=
  match h.task with
  | .waiting => some ⟨h.ready.cancel, .cancelled⟩
  | _ => none

/-- The task has ended, but not by returning the result. -/
def Dropped (h : Handoff α ε) : Prop := h.task = .cancelled ∨ ∃ e, h.task = .raised e

/-- Some result was published. -/
def Published (h : Handoff α ε) : Prop := ∃ a, h.ready = .result a

/-- A task that ended is true to the future: what it returned or raised is there, and a cancelled
task left the future settled or cancelled. -/
structure Ok (h : Handoff α ε) : Prop where
  returned : ∀ a, h.task = .returned a → h.ready = .result a
  raised : ∀ e, h.task = .raised e → h.ready = .failed e
  cancelled : h.task = .cancelled → h.ready ≠ .pending

theorem init_ok : (init : Handoff α ε).Ok :=
  ⟨by simp [init], by simp [init], by simp [init]⟩

theorem resume_published {h h' : Handoff α ε} (hr : h.resume = some h') : h'.Published ↔ h.Published := by
  unfold resume at hr
  split at hr <;> cases hr <;> exact Iff.rfl

theorem resume_waiting {h h' : Handoff α ε} (hr : h.resume = some h') : h.task = .waiting := by
  unfold resume at hr
  split at hr <;> first
    | assumption
    | cases hr

theorem resume_ok {h h' : Handoff α ε} (hr : h.resume = some h') : h'.Ok := by
  unfold resume at hr
  split at hr <;> cases hr <;> constructor <;> simp_all

theorem cancelTask_some {h h' : Handoff α ε} (hc : h.cancelTask = some h') :
    h.task = .waiting ∧ h' = ⟨h.ready.cancel, .cancelled⟩ := by
  unfold cancelTask at hc
  split at hc
  · rename_i ht; cases hc; exact ⟨ht, rfl⟩
  · cases hc

theorem cancelTask_ok {h h' : Handoff α ε} (hc : h.cancelTask = some h') : h'.Ok := by
  obtain ⟨-, rfl⟩ := cancelTask_some hc
  refine ⟨by simp, by simp, fun _ => ?_⟩
  cases h.ready <;> simp [Ready.cancel]

theorem cancelTask_published {h h' : Handoff α ε} (hc : h.cancelTask = some h') :
    h'.Published ↔ h.Published := by
  obtain ⟨-, rfl⟩ := cancelTask_some hc
  unfold Published
  cases h.ready <;> simp [Ready.cancel]

/-- Settling a pending future changes nothing for the task. -/
theorem settle_ok {h : Handoff α ε} {r : Ready α ε} (ho : h.Ok) (hp : h.ready = .pending) (hr : r ≠ .pending) :
    (⟨r, h.task⟩ : Handoff α ε).Ok := by
  refine ⟨fun a h1 => ?_, fun e h1 => ?_, fun _ => hr⟩
  · have := ho.returned a h1; rw [hp] at this; cases this
  · have := ho.raised e h1; rw [hp] at this; cases this

/-- The thread reports its failure, unless the future is settled. -/
theorem report_ok {h : Handoff α ε} (ho : h.Ok) (e : ε) :
    ({ h with ready := (h.ready.setException e).getD h.ready } : Handoff α ε).Ok := by
  cases hs : h.ready.setException e with
  | none => exact ho
  | some r =>
    obtain ⟨hp, rfl⟩ := Ready.setException_some hs
    exact settle_ok ho hp (by simp)

theorem report_published (h : Handoff α ε) (e : ε) :
    ({ h with ready := (h.ready.setException e).getD h.ready } : Handoff α ε).Published ↔ h.Published := by
  unfold Published
  cases h.ready <;> simp [Ready.setException]

/-- A task that ended in any way left the future settled or cancelled. -/
theorem Ok.settled {h : Handoff α ε} (ho : h.Ok) (ht : h.task ≠ .waiting) : h.ready ≠ .pending := by
  cases hk : h.task with
  | waiting => exact absurd hk ht
  | returned a => rw [ho.returned a hk]; simp
  | raised e => rw [ho.raised e hk]; simp
  | cancelled => exact ho.cancelled hk

theorem Dropped.not_returned {h : Handoff α ε} (hd : h.Dropped) (a : α) : h.task ≠ .returned a := by
  rintro ht
  rcases hd with h1 | ⟨e, h1⟩ <;> rw [ht] at h1 <;> cases h1

theorem Dropped.not_waiting {h : Handoff α ε} (hd : h.Dropped) : h.task ≠ .waiting := by
  rintro ht
  rcases hd with h1 | ⟨e, h1⟩ <;> rw [ht] at h1 <;> cases h1

theorem Ok.dropped_settled {h : Handoff α ε} (ho : h.Ok) (hd : h.Dropped) : h.ready ≠ .pending :=
  ho.settled hd.not_waiting

/-- A task that returned took a published result. -/
theorem Ok.not_returned {h : Handoff α ε} (ho : h.Ok) (hp : ¬ h.Published) (a : α) : h.task ≠ .returned a :=
  fun ht => hp ⟨a, ho.returned a ht⟩

/-- A resumption that does not return the result finds none published. -/
theorem resume_dropped {h h' : Handoff α ε} (hr : h.resume = some h') (hd : h'.Dropped) : ¬ h.Published := by
  unfold resume at hr
  split at hr <;> cases hr
  · exact absurd rfl (hd.not_returned _)
  all_goals
    rintro ⟨a, ha⟩
    simp_all

end Handoff

end Lib
