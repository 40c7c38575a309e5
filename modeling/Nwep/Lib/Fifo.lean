/-
A first-in first-out queue that remembers what was taken from it, so that what was ever put is
`taken ++ waiting` and each take moves one item from the second list to the first.
-/
import Mathlib.Data.List.Basic

namespace Lib

/-- A queue with its past: the items already taken, oldest first, and those still waiting. -/
structure Fifo (α : Type*) where
  taken : List α
  waiting : List α
deriving Repr, DecidableEq

namespace Fifo

variable {α : Type*} {q q' : Fifo α} {x : α}

def empty : Fifo α := ⟨[], []⟩

def put (q : Fifo α) (x : α) : Fifo α := { q with waiting := q.waiting ++ [x] }

/-- The oldest waiting item, `none` when nothing waits. -/
def get (q : Fifo α) : Option (α × Fifo α) :=
  match q.waiting with
  | [] => none
  | x :: xs => some (x, ⟨q.taken ++ [x], xs⟩)

/-- Every item ever put, in the order of the puts. -/
def history (q : Fifo α) : List α := q.taken ++ q.waiting

@[simp] theorem put_taken : (q.put x).taken = q.taken := rfl
@[simp] theorem put_waiting : (q.put x).waiting = q.waiting ++ [x] := rfl

@[simp] theorem put_history : (q.put x).history = q.history ++ [x] := by simp [history]

theorem get_none : q.get = none ↔ q.waiting = [] := by
  unfold get; split <;> simp_all

/-- A take moves the head of `waiting` to the end of `taken`. -/
theorem get_some (h : q.get = some (x, q')) :
    q.waiting = x :: q'.waiting ∧ q'.taken = q.taken ++ [x] := by
  unfold get at h
  split at h
  · cases h
  · rename_i hw
    cases h; exact ⟨hw, rfl⟩

theorem get_history (h : q.get = some (x, q')) : q'.history = q.history := by
  obtain ⟨h1, h2⟩ := get_some h
  simp [history, h1, h2]

/-- What was taken is a prefix of what was put, in order. -/
theorem taken_prefix (q : Fifo α) : q.taken <+: q.history := List.prefix_append _ _

end Fifo

end Lib
