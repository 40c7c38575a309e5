/-
Every native handle and who owns it, for any number of objects of the owning classes: their
constructors, methods, closes, context-manager exits and finalizers, the handles the library gives to
the completion hook, and the Streams that read a Response from a client's handle, in any order.

Ownership moves from a Connecting to its Client by `poll`; everything else is owned by one wrapper from
the call that hands it out to the call that frees it, but for the codes that a method has no case for.
-/
import Nwep.Native.Balance
import Nwep.Native.Create
import Mathlib.Algebra.BigOperators.Group.Finset.Basic

namespace Nwep.Native

open Lib

variable {ε : Type}

/-! ## Objects and their handles -/

/-- A wrapper object of an owning class. Without a handle, its `__init__` raised before it had one. -/
structure Owner where
  cls : Cls
  handle : Option Nat
deriving Repr, DecidableEq

/-- All owning objects and all Streams, in the order of their creation, and what the library called the
completion hooks with: the status and the message. -/
structure Roster where
  heap : Heap
  building : Workshop
  objects : List Owner
  streams : List (Nat × Int)
  completions : List (Int × Nat)

/-- `__init__` of an opening calls the library itself. -/
def Opening.inInit : Opening ε → Bool
  | logServer _ => true
  | _ => false

namespace Roster

def ref (i handle : Nat) : Wrapper := ⟨2 * i, handle⟩

/-- The `i`-th object, if it is of this class and has a handle. -/
def owner (s : Roster) (k : Cls) (i : Nat) : Option Wrapper :=
  match s.objects[i]? with
  | some ⟨k', some h⟩ => if k' = k then some (ref i h) else none
  | _ => none

/-- A new object, open. -/
def add (s : Roster) (o : Owner) : Roster :=
  { s with
    heap := { s.heap with objs := Function.update s.heap.objs (2 * s.objects.length) {} }
    objects := s.objects ++ [o] }

/-- A method was run; of the handle it returned an object of class `k` was made. -/
def ran (s : Roster) (x : Prog ε Value) (k : Cls) : Roster :=
  match returned x s.heap with
  | some h => ({ s with heap := after x s.heap } : Roster).add ⟨k, some h⟩
  | none => { s with heap := after x s.heap }

/-- A constructor was run: the object exists with the handle it held, or without one when `__init__` raised. -/
def constructed (s : Roster) (c : Ctor ε) : Roster :=
  let v := after c.run { s.building with objs := none }
  match v.objs with
  | some h => ({ s with building := v } : Roster).add ⟨c.cls, some h⟩
  | none => if c.inInit then ({ s with building := v } : Roster).add ⟨c.cls, none⟩ else { s with building := v }

/-- An owner was borrowed from: a Dht, a LogServer or a Stream. -/
def borrowed (s : Roster) (i : Nat) (w : Wrapper) (o : Opening ε) : Roster :=
  let s' := s.ran (o.method.run w) o.cls
  match o.method.run w s.heap with
  -- `open_stream` returns an id: the Stream made of it owns no handle
  | .ok (.int id) _ => { s' with streams := s'.streams ++ [(i, id)] }
  | .ok _ _ => s'
  | .error _ _ => if o.inInit then s'.add ⟨o.cls, none⟩ else s'

/-- The trampoline of `on_request_done`: the hook gets a Response, or the error of the status. -/
def completed (s : Roster) (status : Int) (resp : Nat) : Roster :=
  let s' := { s with completions := s.completions ++ [(status, resp)] }
  -- for any other status the hook gets the error, and the message is nobody's
  if status = 0 then s'.add ⟨.response, some resp⟩ else s'

/-- `close`, `__exit__` and `__del__` of the `i`-th object. -/
def closed (ε : Type) (s : Roster) (i : Nat) (k : Cls) (handle : Nat) : Roster :=
  s.ran (closeWith (ref i handle) k.kind : Prog ε Value) k

inductive Act (ε : Type) where
  | construct (c : Ctor ε)
  | borrow (i : Nat) (o : Opening ε)
  | op (k : Cls) (i : Nat) (o : Op ε k)
  | stream (j : Nat) (o : StreamOp ε)
  | requestDone (i : Nat) (status : Int) (resp : Nat)
  | exit (i : Nat)
  | finalize (i : Nat)

/-- One act. `close` is an operation; the finalizer of an object without a handle swallows the
`AttributeError`. -/
def step (s : Roster) : Act ε → Option Roster
  | .construct c => some (s.constructed c)
  | .borrow i o => (s.owner o.pair.lender i).map fun w => s.borrowed i w o
  | .op k i o => (s.owner k i).map fun w => s.ran (o.1.run k w) o.1.makes
  | .stream j o =>
    match s.streams[j]? with
    | some (i, id) =>
      (s.owner .client i).map fun client => s.ran (o.run id (borrowerRef j client.handle) client) .response
    | none => none
  | .requestDone i status resp =>
    match s.owner .client i with
    | some w => if (s.heap.objs w.id).callback.isSome then some (s.completed status resp) else none
    | none => none
  | .exit i =>
    match s.objects[i]? with
    | some ⟨k, some h⟩ => some (s.closed ε i k h)
    | _ => none
  | .finalize i =>
    match s.objects[i]? with
    | some ⟨k, some h⟩ => some (s.closed ε i k h)
    | some ⟨_, none⟩ => some s
    | none => none

/-- No object yet, and what the library will return, to constructors and to the others. -/
def init (make ret : Nat → Ret) : Roster := ⟨⟨fun _ => {}, ret, []⟩, ⟨none, make, []⟩, [], [], []⟩

/-! ## The account -/

/-- The hook was called with the message, and with no error. -/
def Told (y : Pointer) (c : Int × Nat) : Prop := 0 ≤ c.1 ∧ y.kind = .message ∧ y.addr = c.2

/-- The status is no error, but not the one the trampoline makes a Response for. -/
def Untold (y : Pointer) (c : Int × Nat) : Prop := 0 < c.1 ∧ y.kind = .message ∧ y.addr = c.2

instance (y : Pointer) : DecidablePred (Told y) := fun _ => inferInstanceAs (Decidable (_ ∧ _))

instance (y : Pointer) : DecidablePred (Untold y) := fun _ => inferInstanceAs (Decidable (_ ∧ _))

/-- How often the library handed the handle out. -/
def handed (s : Roster) (y : Pointer) : Nat :=
  issued s.building y + Native.handed s.heap y + s.completions.countP (Told y)

/-- How often it was freed: by the function of its kind, or by a poll that failed. -/
def freed (s : Roster) (y : Pointer) : Nat := Native.freed s.heap y

def lost (s : Roster) (y : Pointer) : Nat := Native.lost s.heap y + s.completions.countP (Untold y)

/-- Whether the `i`-th object owns the handle. -/
def own (s : Roster) (y : Pointer) (i : Nat) : Nat :=
  match s.objects[i]? with
  | some ⟨k, some h⟩ => owned k.kind (ref i h) s.heap y
  | _ => 0

/-- How many objects own the handle. -/
def held (s : Roster) (y : Pointer) : Nat := ∑ i ∈ Finset.range s.objects.length, s.own y i

/-- Every handle handed out was freed, was lost, or is owned by an object. -/
def Accounted (s : Roster) : Prop := ∀ y, s.handed y = s.freed y + s.lost y + s.held y

/-- The act makes a method drop the handle. -/
def Drops (s : Roster) : Act ε → Pointer → Prop
  | .op k i o, y => ∃ w, s.owner k i = some w ∧ o.1.Drops k w s.heap y
  | .requestDone _ status resp, y => Untold y (status, resp)
  | _, _ => False

/-- The library's codes are ones that the methods have a case for. -/
def Recognized (s : Roster) (a : Act ε) : Prop := ∀ y, ¬ s.Drops a y

/-! ## One act -/

section

variable {s s' : Roster} {y : Pointer} {i : Nat} {extra : Pointer → Nat} {drops : Pointer → Prop}

/-- From `s` to `s'`, with `extra` handed out that no object owns yet. -/
structure Moved (s s' : Roster) (extra : Pointer → Nat) (drops : Pointer → Prop) : Prop where
  sheet : ∀ y, s'.handed y + s.freed y + s.lost y + s.held y =
    s.handed y + s'.freed y + s'.lost y + s'.held y + extra y
  lost : ∀ y, s'.lost y = 0 ↔ s.lost y = 0 ∧ ¬ drops y
  grows : s.objects.length ≤ s'.objects.length
  keeps : ∀ i < s.objects.length, ∀ y, s.own y i = 0 → s'.own y i = 0

theorem own_add_of_lt (o : Owner) (hi : i < s.objects.length) (y : Pointer) : (s.add o).own y i = s.own y i := by
  have hne : 2 * i ≠ 2 * s.objects.length := by omega
  unfold own add
  rw [List.getElem?_append_left hi]
  split
  · unfold owned isClosed ref
    simp only [Function.update_of_ne hne]
  · rfl

theorem own_add_self (s : Roster) (o : Owner) (y : Pointer) :
    (s.add o).own y s.objects.length = gives o.cls.kind o.handle y := by
  unfold own add
  rw [List.getElem?_concat_length]
  obtain ⟨k, _ | h⟩ := o
  · exact (gives_none k.kind y).symm
  · refine tally_congr ?_
    unfold isClosed ref
    simp only [Function.update_self, and_true, Option.some_inj]

theorem held_add (s : Roster) (o : Owner) (y : Pointer) :
    (s.add o).held y = s.held y + gives o.cls.kind o.handle y := by
  have hlen : (s.add o).objects.length = s.objects.length + 1 := List.length_append
  unfold held
  rw [hlen, Finset.sum_range_succ, own_add_self]
  congr 1
  exact Finset.sum_congr rfl fun i hi => own_add_of_lt o (Finset.mem_range.1 hi) y

/-- What no object owned yet, the new one does. -/
theorem Moved.add {o : Owner} (h : Moved s s' (gives o.cls.kind o.handle) drops) :
    Moved s (s'.add o) (fun _ => 0) drops := by
  refine ⟨fun y => ?_, h.lost, ?_, fun i hi y ho => ?_⟩
  · have := h.sheet y
    have hh := held_add s' o y
    show s'.handed y + s.freed y + s.lost y + s.held y = s.handed y + s'.freed y + s'.lost y + (s'.add o).held y + 0
    omega
  · have hlen : (s'.add o).objects.length = s'.objects.length + 1 := List.length_append
    have := h.grows
    omega
  · rw [own_add_of_lt o (Nat.lt_of_lt_of_le hi h.grows)]
    exact h.keeps i hi y ho

theorem Moved.refl (s : Roster) : Moved s s (fun _ => 0) fun _ => False :=
  ⟨fun _ => rfl, fun _ => (and_iff_left id).symm, Nat.le_refl _, fun _ _ _ => id⟩

theorem Moved.congr {extra' : Pointer → Nat} (h : Moved s s' extra drops) (he : ∀ y, extra y = extra' y) :
    Moved s s' extra' drops :=
  ⟨fun y => by rw [h.sheet y, he], h.lost, h.grows, h.keeps⟩

/-- Without a handle it owns nothing. -/
theorem Moved.add_none (k : Cls) (h : Moved s s' (fun _ => 0) drops) : Moved s (s'.add ⟨k, none⟩) (fun _ => 0) drops :=
  Moved.add (h.congr fun y => (gives_none k.kind y).symm)

/-- The owner that a guard found. -/
theorem owner_some {k : Cls} {w : Wrapper} (hw : s.owner k i = some w) :
    ∃ h, w = ref i h ∧ s.objects[i]? = some ⟨k, some h⟩ := by
  unfold owner at hw
  split at hw
  · rename_i k' h ho
    split at hw
    · rename_i hk
      cases hw; exact ⟨h, rfl, hk ▸ ho⟩
    · cases hw
  · cases hw

/-- A sum whose terms differ in one place. -/
theorem sum_range_change {n i : Nat} {f g : Nat → Nat} (hi : i < n) (h : ∀ j < n, j ≠ i → g j = f j) :
    (∑ j ∈ Finset.range n, g j) + f i = (∑ j ∈ Finset.range n, f j) + g i := by
  have hmem : i ∈ Finset.range n := Finset.mem_range.2 hi
  have hrest : ∑ j ∈ (Finset.range n).erase i, g j = ∑ j ∈ (Finset.range n).erase i, f j := by
    refine Finset.sum_congr rfl fun j hj => ?_
    obtain ⟨hne, hj⟩ := Finset.mem_erase.1 hj
    exact h j (Finset.mem_range.1 hj) hne
  rw [← Finset.add_sum_erase _ f hmem, ← Finset.add_sum_erase _ g hmem, hrest]
  omega

/-- An object that the method did not run on. -/
theorem own_heap_of_ne {w : Wrapper} {v : Heap} (he : ∀ u, u ≠ w.id → (v.objs u).closed = (s.heap.objs u).closed)
    (hi : 2 * i ≠ w.id) (y : Pointer) : ({ s with heap := v } : Roster).own y i = s.own y i := by
  unfold own
  simp only
  split
  · unfold owned isClosed ref
    simp only [he _ hi]
  · rfl

variable {x : Prog ε Value} {k made : Cls} {h : Nat}

theorem own_of_object (ho : s.objects[i]? = some ⟨k, some h⟩) (y : Pointer) :
    s.own y i = owned k.kind (ref i h) s.heap y := by
  unfold own
  rw [ho]

/-- A balanced run that changes what the objects own by what its wrapper owns. -/
theorem moved_balanced {w : Wrapper} {part : Heap → Pointer → Nat} (hb : Balanced w part made.kind x s.heap drops)
    (hheld : ∀ y,
      ({ s with heap := after x s.heap } : Roster).held y + part s.heap y = s.held y + part (after x s.heap) y)
    (hkeeps : ∀ i < s.objects.length, ∀ y, s.own y i = 0 → ({ s with heap := after x s.heap } : Roster).own y i = 0) :
    Moved s { s with heap := after x s.heap } (gives made.kind (returned x s.heap)) drops := by
  refine ⟨fun y => ?_, fun y => ?_, Nat.le_refl _, hkeeps⟩
  · have hsheet := hb.sheet y
    have hh := hheld y
    unfold handed freed lost
    simp only
    omega
  · unfold lost
    simp only [Nat.add_eq_zero_iff, hb.loses y]
    exact and_right_comm

/-- A method ran on the `i`-th object. -/
theorem moved_owner (ho : s.objects[i]? = some ⟨k, some h⟩)
    (hb : Balanced (ref i h) (owned k.kind (ref i h)) made.kind x s.heap drops) :
    Moved s { s with heap := after x s.heap } (gives made.kind (returned x s.heap)) drops := by
  have hi : i < s.objects.length := (List.getElem?_eq_some_iff.1 ho).1
  have hother : ∀ y, ∀ j < s.objects.length, j ≠ i →
      ({ s with heap := after x s.heap } : Roster).own y j = s.own y j := by
    intro y j _ hj
    have hne : 2 * j ≠ (ref i h).id := fun he => hj (Nat.eq_of_mul_eq_mul_left (by decide) he)
    exact own_heap_of_ne hb.elsewhere hne y
  have hself : ∀ y, ({ s with heap := after x s.heap } : Roster).own y i = owned k.kind (ref i h) (after x s.heap) y :=
    fun y => own_of_object (s := { s with heap := after x s.heap }) ho y
  -- the sum over the owners changes in its `i`-th term alone
  refine moved_balanced hb (fun y => ?_) fun j hj y hz => ?_
  · have hsum := sum_range_change hi (hother y)
    rw [hself, own_of_object ho] at hsum
    exact hsum
  · by_cases hji : j = i
    · subst hji
      rw [own_of_object ho] at hz
      rw [hself]
      exact owned_mono hb.stays hz
    · rw [hother y j hj hji]; exact hz

/-- A method ran on a Stream, which is no owner. -/
theorem moved_stream {j handle : Nat} (hb : Balanced (borrowerRef j handle) (fun _ _ => 0) made.kind x s.heap drops) :
    Moved s { s with heap := after x s.heap } (gives made.kind (returned x s.heap)) drops := by
  have hown : ∀ y i, ({ s with heap := after x s.heap } : Roster).own y i = s.own y i := by
    intro y i
    have hne : 2 * i ≠ (borrowerRef j handle).id := by
      show 2 * i ≠ 2 * j + 1
      omega
    exact own_heap_of_ne hb.elsewhere hne y
  refine moved_balanced hb (fun y => ?_) fun i _ y hz => (hown y i).trans hz
  rw [Nat.add_zero, Nat.add_zero]
  exact Finset.sum_congr rfl fun i _ => hown y i

theorem Moved.ran (h : Moved s { s with heap := after x s.heap } (gives made.kind (returned x s.heap)) drops) :
    Moved s (s.ran x made) (fun _ => 0) drops := by
  unfold Roster.ran
  cases hr : returned x s.heap with
  | some a =>
    rw [hr] at h
    exact Moved.add (o := ⟨made, some a⟩) h
  | none =>
    rw [hr] at h
    exact h.congr fun y => gives_none made.kind y

theorem Moved.drops_iff {drops' : Pointer → Prop} (h : Moved s s' extra drops) (hd : ∀ y, drops' y ↔ drops y) :
    Moved s s' extra drops' :=
  ⟨h.sheet, fun y => by rw [h.lost, hd], h.grows, h.keeps⟩

theorem closed_moved (ho : s.objects[i]? = some ⟨k, some h⟩) : Moved s (s.closed ε i k h) (fun _ => 0) fun _ => False :=
  (moved_owner ho (close_balanced (ε := ε) k.kind (ref i h) s.heap)).ran

/-- The account of a constructor. -/
theorem constructed_moved (s : Roster) (c : Ctor ε) : Moved s (s.constructed c) (fun _ => 0) fun _ => False := by
  have hb := c.built (v := { s.building with objs := none }) rfl
  have hm : Moved s { s with building := after c.run { s.building with objs := none } }
      (gives c.cls.kind (after c.run { s.building with objs := none }).objs) fun _ => False := by
    refine ⟨fun y => ?_, fun y => (and_iff_left id).symm, Nat.le_refl _, fun _ _ _ => id⟩
    have hy : issued (after c.run { s.building with objs := none }) y = issued s.building y + _ := hb y
    show issued (after c.run { s.building with objs := none }) y + Native.handed s.heap y +
      s.completions.countP (Told y) + s.freed y + s.lost y + s.held y = s.handed y + s.freed y + s.lost y + s.held y + _
    unfold handed
    omega
  unfold constructed
  simp only
  cases ho : (after c.run { s.building with objs := none }).objs with
  | some a =>
    rw [ho] at hm
    exact Moved.add (o := ⟨c.cls, some a⟩) hm
  | none =>
    rw [ho] at hm
    have hm' := hm.congr fun y => gives_none c.cls.kind y
    simp only
    split
    · exact hm'.add_none c.cls
    · exact hm'

/-- The account of an opening. -/
theorem borrowed_moved (o : Opening ε) (ho : s.objects[i]? = some ⟨o.pair.lender, some h⟩) :
    Moved s (s.borrowed i (ref i h) o) (fun _ => 0) fun _ => False := by
  have hm := (moved_owner ho (o.balanced (ref i h) s.heap)).ran
  unfold borrowed
  simp only
  split
  · exact ⟨hm.sheet, hm.lost, hm.grows, hm.keeps⟩
  · exact hm
  · split
    · exact hm.add_none o.cls
    · exact hm

/-- A message that the trampoline is told of goes to the hook's Response, for the status 0, or is dropped. -/
theorem tally_told (y : Pointer) (status : Int) (resp : Nat) :
    tally (Told y (status, resp)) =
      tally (Untold y (status, resp)) + if status = 0 then gives .message (some resp) y else 0 := by
  rcases Int.lt_trichotomy status 0 with h0 | h0 | h0
  · have ht : ¬ Told y (status, resp) := fun h => absurd h.1 (Int.not_le.2 h0)
    have hu : ¬ Untold y (status, resp) := fun h => absurd h.1 (Int.not_lt.2 (Int.le_of_lt h0))
    rw [tally_false ht, tally_false hu, if_neg (by omega)]
  · subst h0
    have hu : ¬ Untold y (0, resp) := fun h => absurd h.1 (Int.lt_irrefl 0)
    rw [tally_false hu, if_pos rfl, Nat.zero_add]
    refine tally_congr ((and_iff_right (Int.le_refl 0)).trans ?_)
    exact and_congr eq_comm (eq_comm.trans Option.some_inj.symm)
  · have ht : Told y (status, resp) ↔ Untold y (status, resp) :=
      (and_iff_right (Int.le_of_lt h0)).trans (and_iff_right h0).symm
    rw [tally_congr ht, if_neg (by omega), Nat.add_zero]

/-- The account of a completion. -/
theorem completed_moved (s : Roster) (status : Int) (resp : Nat) :
    Moved s (s.completed status resp) (fun _ => 0) fun y => Untold y (status, resp) := by
  have hm : Moved s { s with completions := s.completions ++ [(status, resp)] }
      (fun y => if status = 0 then gives .message (some resp) y else 0) fun y => Untold y (status, resp) := by
    refine ⟨fun y => ?_, fun y => ?_, Nat.le_refl _, fun _ _ _ => id⟩
    · have ht := tally_told y status resp
      have hheld : ({ s with completions := s.completions ++ [(status, resp)] } : Roster).held y = s.held y := rfl
      rw [hheld]
      unfold handed freed lost
      simp only [countP_concat]
      omega
    · unfold lost
      simp only [countP_concat]
      rw [← Nat.add_assoc, Nat.add_eq_zero_iff, tally_eq_zero]
  unfold completed
  simp only
  by_cases h0 : status = 0
  · rw [if_pos h0]
    exact Moved.add (o := ⟨.response, some resp⟩) (hm.congr fun y => if_pos h0)
  · rw [if_neg h0]
    exact hm.congr fun y => if_neg h0

/-- The spec of every act. -/
theorem step_moved {a : Act ε} (hs : s.step a = some s') : Moved s s' (fun _ => 0) (s.Drops a) := by
  cases a with
  | construct c => cases hs; exact constructed_moved s c
  | borrow i o =>
    obtain ⟨w, hw, rfl⟩ := Option.map_eq_some_iff.1 hs
    obtain ⟨h, rfl, ho⟩ := owner_some hw
    exact borrowed_moved o ho
  | op k i o =>
    obtain ⟨w, hw, rfl⟩ := Option.map_eq_some_iff.1 hs
    obtain ⟨h, rfl, ho⟩ := owner_some hw
    refine (moved_owner ho (o.2.balanced (ref i h) s.heap)).ran.drops_iff fun y => ?_
    show (∃ w, s.owner k i = some w ∧ o.1.Drops k w s.heap y) ↔ _
    rw [hw]
    simp only [Option.some_inj, exists_eq_left']
  | stream j o =>
    simp only [step] at hs
    split at hs
    · rename_i i id _
      obtain ⟨w, hw, rfl⟩ := Option.map_eq_some_iff.1 hs
      exact (moved_stream (o.balanced id (borrowerRef j w.handle) w s.heap)).ran
    · cases hs
  | requestDone i status resp =>
    simp only [step] at hs
    split at hs
    · split at hs
      · cases hs; exact completed_moved s status resp
      · cases hs
    · cases hs
  | exit i =>
    simp only [step] at hs
    split at hs
    · rename_i ho
      cases hs; exact closed_moved ho
    · cases hs
  | finalize i =>
    simp only [step] at hs
    split at hs
    · rename_i ho
      cases hs; exact closed_moved ho
    · cases hs; exact Moved.refl s
    · cases hs

theorem Moved.accounted (h : Moved s s' (fun _ => 0) drops) (ha : s.Accounted) : s'.Accounted := by
  intro y
  have := h.sheet y
  have := ha y
  omega

end

/-! ## Whole runs -/

section

variable {s s' : Roster} {make ret : Nat → Ret} {as : List (Act ε)}

theorem init_accounted (make ret : Nat → Ret) : (init make ret).Accounted := fun _ => rfl

theorem accounted_step (s : Roster) (a : Act ε) (s' : Roster) (ha : s.Accounted) (h : s.step a = some s') :
    s'.Accounted :=
  (step_moved h).accounted ha

theorem recognized_step (s : Roster) (a : Act ε) (s' : Roster) (h : s.step a = some s') :
    (∀ y, s'.lost y = 0) ↔ (∀ y, s.lost y = 0) ∧ s.Recognized a := by
  unfold Recognized
  rw [← forall_and]
  exact forall_congr' (step_moved h).lost

/-- The objects finalized so far own nothing. -/
def Spent (pre : List (Act ε)) (s : Roster) : Prop :=
  ∀ i, .finalize i ∈ pre → i < s.objects.length ∧ ∀ y, s.own y i = 0

/-- A finalizer leaves its object with nothing. -/
theorem finalize_spent {i : Nat} (h : s.step (.finalize i : Act ε) = some s') :
    i < s'.objects.length ∧ ∀ y, s'.own y i = 0 := by
  have hgrows := (step_moved h).grows
  simp only [step] at h
  split at h
  · rename_i k a ho
    have hi := (List.getElem?_eq_some_iff.1 ho).1
    cases h
    refine ⟨Nat.lt_of_lt_of_le hi hgrows, fun y => ?_⟩
    have hr : returned (closeWith (ref i a) k.kind : Prog ε Value) s.heap = none := returned_none (yields_close _ _) _
    -- open or closed before, the object is closed after its finalizer
    unfold closed ran
    rw [hr]
    exact (own_of_object (s := { s with heap := after (closeWith (ref i a) k.kind : Prog ε Value) s.heap }) ho y).trans
      (owned_closed (isClosed_close k.kind _ _) y)
  · rename_i k ho
    cases h
    refine ⟨(List.getElem?_eq_some_iff.1 ho).1, fun y => ?_⟩
    unfold own
    rw [ho]
  · cases h

theorem spent_step (pre : List (Act ε)) (s : Roster) (a : Act ε) (s' : Roster) (hp : Spent pre s)
    (h : s.step a = some s') :
    Spent (pre ++ [a]) s' := by
  intro i hi
  rcases List.mem_append.1 hi with hi | hi
  · obtain ⟨hlt, ho⟩ := hp i hi
    exact ⟨Nat.lt_of_lt_of_le hlt (step_moved h).grows, fun y => (step_moved h).keeps i hlt y (ho y)⟩
  · obtain rfl := List.mem_singleton.1 hi
    exact finalize_spent h

/-- Once every object was finalized, no handle is owned. -/
theorem held_finalized (h : runs step (init make ret) as = some s) (hf : ∀ i < s.objects.length, .finalize i ∈ as)
    (y : Pointer) :
    s.held y = 0 := by
  have hs : Spent ([] ++ as) s := runs_trace spent_step [] as (by rintro i ⟨⟩) h
  exact Finset.sum_eq_zero fun i hi => (hs i (hf i (Finset.mem_range.1 hi))).2 y

/-- For every sequence of acts on any number of objects, and all codes the library may return: no handle is freed
more often than it was handed out, nor under the object that owns it; and by the time every object was
finalized each handle was freed as often as it was handed out, if and only if every code was one that the
methods have a case for. -/
theorem handles_freed (h : runs step (init make ret) as = some s) :
    (∀ y, s.freed y + s.held y ≤ s.handed y) ∧
    ((∀ i < s.objects.length, .finalize i ∈ as) →
      ((∀ y, s.freed y = s.handed y) ↔ Meets step Recognized (init make ret) as)) := by
  constructor
  · intro y
    have := runs_inv accounted_step as (init_accounted make ret) h y
    omega
  · intro hf
    -- nothing is held any more, so the account has frees and losses only
    exact runs_freed (I := Accounted) accounted_step
      (fun _ ha => ha) (fun s a s' _ => recognized_step s a s') (init_accounted make ret)
      (fun _ => rfl) h (held_finalized h hf)

end

/-- A Connecting that was polled twice before its Client came out, closed and collected. -/
def handshake : List (Act Unit) :=
  [.construct (.startConnect (.ok 1) (.ok (.ofBuffer [])) (.ok 2)), .op .connecting 0 ⟨_, .connectingPoll⟩,
    .op .connecting 0 ⟨_, .connectingPoll⟩, .finalize 0, .op .client 1 ⟨_, .close _⟩, .exit 1, .finalize 1]

theorem handles_freed_handshake : ∃ s, runs step (init (fun _ => ⟨0, 7, []⟩) fun n => ⟨n, 0, []⟩) handshake = some s ∧
    ∀ y, s.freed y = s.handed y := by
  have h : runs step (init (fun _ => ⟨0, 7, []⟩) fun n => ⟨n, 0, []⟩) handshake = some _ := rfl
  refine ⟨_, h, ((handles_freed h).2 ?_).2 ?_⟩
  · rintro (_ | _ | i) hi
    · exact .tail _ (.tail _ (.tail _ (.head _)))
    · exact .tail _ (.tail _ (.tail _ (.tail _ (.tail _ (.tail _ (.head _))))))
    · exact absurd hi (Nat.not_lt.2 (Nat.le_add_left 2 i))
  · refine ⟨fun _ => id, fun y => ?_, fun y => ?_, fun _ => id, fun y => ?_, fun _ => id, fun _ => id, trivial⟩
    all_goals
      rintro ⟨w, hw, -, fn, hf, hl⟩
      cases hw; cases List.mem_singleton.1 hf; cases hl

/-- A poll that returns 2 hands out no Client and closes the Connecting: nothing frees the handle any more. -/
theorem connecting_leaked : ∃ s, runs step (init (fun _ => ⟨0, 7, []⟩) fun _ => ⟨2, 0, []⟩)
      ([.construct (.startConnect (.ok 1) (.ok (.ofBuffer [])) (.ok 2)), .op .connecting 0 ⟨_, .connectingPoll⟩,
        .exit 0, .finalize 0] :
        List (Act Unit)) = some s ∧
    s.objects = [⟨.connecting, some 7⟩] ∧ s.handed ⟨.client, 7, by decide⟩ = 1 ∧ s.freed ⟨.client, 7, by decide⟩ = 0 ∧
    s.heap.log.map (fun c => c.1.fn) = [.clientConnectPoll] :=
  ⟨_, rfl, rfl, by decide, by decide, rfl⟩

end Roster

end Nwep.Native
