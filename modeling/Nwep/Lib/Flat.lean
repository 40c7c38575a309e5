/-
Flat buffers: items of one size back to back, and how a reader that is given the stride and the
number of items gets them back.
-/
import Mathlib.Data.List.Basic

namespace Lib.Flat

variable {α : Type}

/-- `buf[i:j]`. -/
def slice (buf : List α) (i j : Nat) : List α := (buf.take j).drop i

/-- The `i`-th item of length `k`. -/
def item (k i : Nat) (buf : List α) : List α := (buf.drop (i * k)).take k

/-- The first `n` items of length `k`. -/
def items (k n : Nat) (buf : List α) : List (List α) := (List.range n).map fun i => item k i buf

theorem slice_item (buf : List α) (k i : Nat) : slice buf (i * k) ((i + 1) * k) = item k i buf := by
  unfold slice item
  have h : (i + 1) * k - i * k = k := by rw [Nat.succ_mul]; omega
  rw [List.drop_take, h]

theorem items_succ (k n : Nat) (buf : List α) : items k (n + 1) buf = buf.take k :: items k n (buf.drop k) := by
  unfold items
  rw [List.range_succ_eq_map, List.map_cons, List.map_map]
  congr 1
  · unfold item; rw [Nat.zero_mul, List.drop_zero]
  · refine List.map_congr_left fun i _ => ?_
    show item k (i + 1) buf = item k i (buf.drop k)
    unfold item
    rw [List.drop_drop, Nat.succ_mul, Nat.add_comm]

/-! ## Buffers made of items -/

section Joined

variable {k : Nat} {xs : List (List α)}

/-- Reading undoes joining, whatever follows the last item. -/
theorem items_flatten_append (h : ∀ x ∈ xs, x.length = k) (rest : List α) :
    items k xs.length (xs.flatten ++ rest) = xs := by
  induction xs with
  | nil => rfl
  | cons x xs ih =>
    have hx : x.length = k := h x List.mem_cons_self
    have hxs : ∀ y ∈ xs, y.length = k := fun y hy => h y (List.mem_cons_of_mem _ hy)
    rw [List.length_cons, items_succ, List.flatten_cons, List.append_assoc]
    rw [List.take_left' hx, List.drop_left' hx, ih hxs]

theorem items_flatten (h : ∀ x ∈ xs, x.length = k) : items k xs.length xs.flatten = xs := by
  have := items_flatten_append h []
  rwa [List.append_nil] at this

theorem length_flatten_eq (h : ∀ x ∈ xs, x.length = k) : xs.flatten.length = xs.length * k := by
  induction xs with
  | nil => rw [List.flatten_nil, List.length_nil, List.length_nil, Nat.zero_mul]
  | cons x xs ih =>
    rw [List.flatten_cons, List.length_append, h x List.mem_cons_self, ih fun y hy => h y (List.mem_cons_of_mem _ hy)]
    rw [List.length_cons, Nat.succ_mul, Nat.add_comm]

end Joined

/-! ## Readers -/

/-- A reader with the stride `k` and the count `n` reads the items `xs`, and the buffer ends where
the last of them does. -/
structure Reads (k n : Nat) (buf : List α) (xs : List (List α)) : Prop where
  count : n = xs.length
  length : buf.length = n * k
  items : items k n buf = xs

theorem reads_flatten {k : Nat} {xs : List (List α)} (h : ∀ x ∈ xs, x.length = k) :
    Reads k xs.length xs.flatten xs := ⟨rfl, length_flatten_eq h, items_flatten h⟩

/-- The items of stride 1 are the single elements. -/
theorem reads_single (l : List α) : Reads 1 l.length l (l.map fun a => [a]) := by
  have hsize : ∀ x ∈ l.map fun a => [a], x.length = 1 := by simp
  have h := reads_flatten hsize
  rw [List.length_map, ← List.flatMap_def, List.flatMap_singleton'] at h
  exact h

end Lib.Flat
