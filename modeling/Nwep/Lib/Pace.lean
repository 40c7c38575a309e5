/-
A pacing discipline over clock readings: each reading is taken if it is at least `gap` after the one
taken before it. The readings taken are spaced by the gap, and none that is due is left out.
-/
import Mathlib.Data.List.Basic
import Mathlib.Data.List.Chain

namespace Lib

/-- The readings taken, `last` being the one taken before. -/
def pace (gap : Int) : Int → List Int → List Int
  | _, [] => []
  | last, t :: ts => if gap ≤ t - last then t :: pace gap t ts else pace gap last ts

variable {gap : Int}

@[simp] theorem pace_nil (last : Int) : pace gap last [] = [] := rfl

/-- Pacing goes on from the reading taken last. -/
theorem pace_append : ∀ (last : Int) (ts us : List Int),
    pace gap last (ts ++ us) = pace gap last ts ++ pace gap ((pace gap last ts).getLastD last) us
  | _, [], _ => rfl
  | last, t :: ts, us => by
    simp only [List.cons_append, pace]
    by_cases h : gap ≤ t - last
    · rw [if_pos h, if_pos h, pace_append t ts us, List.cons_append, List.getLastD_cons]
    · rw [if_neg h, if_neg h, pace_append last ts us]

/-- A further reading is taken exactly when it is due. -/
theorem pace_concat (last : Int) (ts : List Int) (t : Int) :
    pace gap last (ts ++ [t]) = pace gap last ts ++ if gap ≤ t - (pace gap last ts).getLastD last then [t] else [] := by
  rw [pace_append]; rfl

/-- Two readings taken one after the other are at least `gap` apart. -/
theorem pace_spaced : ∀ (last : Int) (ts : List Int), List.IsChain (fun t u => gap ≤ u - t) (last :: pace gap last ts)
  | _, [] => List.isChain_singleton _
  | last, t :: ts => by
    simp only [pace]
    by_cases h : gap ≤ t - last
    · rw [if_pos h]; exact List.isChain_cons_cons.2 ⟨h, pace_spaced t ts⟩
    · rw [if_neg h]; exact pace_spaced last ts

end Lib
