/-
Who answers for a handle: which calls hand one out, which free it, and which codes make a method drop
one, and the balance of the three that an operation has to keep.

A pointer that the library hands out again after it was freed is a handle of its own each time, so
everything is counted.
-/
import Nwep.Native.Borrow

namespace Nwep.Native

open Lib

variable {ε : Type}

/-! ## Handles -/

/-- A native handle: its kind and its pointer, which is not `NULL`. -/
structure Pointer where
  kind : Kind
  addr : Nat
  valid : addr ≠ 0

/-- What a call hands out: the pointer it writes, unless the code is an error, or the one it returns. -/
def Call.hands (c : Call) (ret : Ret) : Option (Kind × Nat) :=
  match c.fn with
  | .clientSend | .clientRequestPoll | .clientStreamResponse | .cacheGetSigned =>
    if 0 ≤ ret.rc then some (.message, ret.out) else none
  | .clientPollNotify => if ret.rc = 0 then none else some (.message, ret.rc.toNat)
  | .dhtAttach => if 0 ≤ ret.rc then some (.dht, ret.out) else none
  | .logServerCreate => if ret.rc = 0 then none else some (.logServer, ret.out)
  | _ => none

/-- What its method drops with a code that is no error and that it has no case for: the handle it was called
with, or the one it was handed. -/
def Call.drops (c : Call) (ret : Ret) : Option (Kind × Nat) :=
  match c.fn with
  | .clientConnectPoll => if 1 < ret.rc then some (.client, c.handle) else none
  | .clientRequestPoll | .cacheGetSigned => if 0 < ret.rc then some (.message, ret.out) else none
  | _ => none

def Hands (y : Pointer) (c : Call × Ret) : Prop := c.1.hands c.2 = some (y.kind, y.addr)

def Loses (y : Pointer) (c : Call × Ret) : Prop := c.1.drops c.2 = some (y.kind, y.addr)

instance (y : Pointer) : DecidablePred (Hands y) := fun _ => inferInstanceAs (Decidable (_ = _))

instance (y : Pointer) : DecidablePred (Loses y) := fun _ => inferInstanceAs (Decidable (_ = _))

/-- The function hands out, frees and loses no handle. -/
def Fn.idle : Fn → Bool
  | clientSend | clientRequestPoll | clientStreamResponse | cacheGetSigned | clientPollNotify | dhtAttach
  | logServerCreate | clientConnectPoll | messageFree | clientClose | serverClose | dhtClose | logFree | logServerFree
  | cacheFree | checkpointFree | trustStoreFree | anchorNodeFree => false
  | _ => true

section

variable {y : Pointer} {c : Call × Ret} {k : Kind} {h : Nat}

theorem Fn.idle_not_hands (hi : c.1.fn.idle = true) : ¬ Hands y c := by
  unfold Hands Call.hands
  intro hh
  split at hh
  all_goals first
    | cases hh
    | (rename_i hfn; rw [hfn] at hi; cases hi)

theorem Fn.idle_not_loses (hi : c.1.fn.idle = true) : ¬ Loses y c := by
  unfold Loses Call.drops
  intro hh
  split at hh
  all_goals first
    | cases hh
    | (rename_i hfn; rw [hfn] at hi; cases hi)

theorem Fn.idle_not_frees (hi : c.1.fn.idle = true) : ¬ Frees k h c := by
  rintro ⟨-, hf | ⟨-, hf, -⟩⟩
  · rw [hf] at hi; cases k <;> cases hi
  · rw [hf] at hi; cases hi

/-- A function of one kind that frees no handle of it frees none of another. -/
theorem Fn.plain_frees_none {fn : Fn} {args : List Val} {hd : Nat} {ret : Ret} {k' : Kind} (hp : fn.plain k' = true) :
    ¬ Frees k h (⟨fn, hd, args⟩, ret) := by
  intro hf
  obtain ⟨hk, hh⟩ := hf.uses
  obtain rfl : hd = h := hh
  rw [Fn.plain_kind hp] at hk
  subst hk
  exact Fn.plain_not_frees hp _ _ _ hf

end

/-! ## The account -/

def tally (p : Prop) [Decidable p] : Nat := if p then 1 else 0

section

variable {p q : Prop} [Decidable p] [Decidable q]

theorem tally_false (h : ¬ p) : tally p = 0 := if_neg h

theorem tally_congr (h : p ↔ q) : tally p = tally q := by
  unfold tally
  simp only [h]

theorem tally_and_of (h : p) : tally (p ∧ q) = tally q := tally_congr (and_iff_right h)

theorem tally_and_of_not (h : ¬ p) : tally (p ∧ q) = 0 := tally_false fun hp => h hp.1

theorem tally_eq_zero : tally p = 0 ↔ ¬ p := by
  unfold tally
  split <;> simp_all

end

theorem countP_concat {α : Type} {P : α → Prop} [DecidablePred P] (l : List α) (a : α) :
    (l ++ [a]).countP P = l.countP P + tally (P a) := by
  rw [List.countP_append, List.countP_singleton]
  simp only [tally, decide_eq_true_eq]

def handed (v : Heap) (y : Pointer) : Nat := v.log.countP (Hands y)

def freed (v : Heap) (y : Pointer) : Nat := v.log.countP (Frees y.kind y.addr)

def lost (v : Heap) (y : Pointer) : Nat := v.log.countP (Loses y)

/-- The wrapper owns the handle while it is open. -/
def owned (k : Kind) (w : Wrapper) (v : Heap) (y : Pointer) : Nat :=
  tally (k = y.kind ∧ w.handle = y.addr ∧ isClosed w v = false)

/-- A new wrapper of the kind takes the handle. -/
def gives (k : Kind) (handle : Option Nat) (y : Pointer) : Nat := tally (k = y.kind ∧ handle = some y.addr)

/-- The handle of the object that is returned. -/
def Value.handle : Value → Option Nat
  | object h => some h
  | _ => Option.none

def resultHandle (x : Except (PyExc ε) Value) : Option Nat :=
  match x with
  | .ok a => a.handle
  | .error _ => none

def returned (x : Prog ε Value) (v : Heap) : Option Nat :=
  match x v with
  | .ok a _ => a.handle
  | .error _ _ => none

/-- No run of `x` returns an object. -/
abbrev NoObject (x : Prog ε Value) : Prop := Yields (fun a => a.handle = none) x

/-- `x`, run on `w`: what it is handed, and what `own` says `w` owned, was freed, lost, given to the new wrapper
it returns, or is still owned. -/
structure Balanced (w : Wrapper) (own : Heap → Pointer → Nat) (made : Kind) (x : Prog ε Value) (v : Heap)
    (drops : Pointer → Prop) : Prop where
  sheet : ∀ y, handed (after x v) y + freed v y + lost v y + own v y =
    handed v y + freed (after x v) y + lost (after x v) y + own (after x v) y + gives made (returned x v) y
  loses : ∀ y, lost (after x v) y = 0 ↔ lost v y = 0 ∧ ¬ drops y
  elsewhere : ∀ u, u ≠ w.id → ((after x v).objs u).closed = (v.objs u).closed
  stays : isClosed w v = true → isClosed w (after x v) = true

/-! ## Operations that move no handle -/

/-- From `v` to `v'` by idle calls, with every closed flag as it was. -/
structure Idle (v v' : Heap) : Prop where
  calls : Calls (fun c => c.1.fn.idle = true) v v'
  flags : ∀ u, (v'.objs u).closed = (v.objs u).closed

instance : Std.Refl Idle where
  refl v := ⟨Std.Refl.refl v, fun _ => rfl⟩

instance : IsTrans Heap Idle where
  trans _ _ _ h h' := ⟨IsTrans.trans _ _ _ h.calls h'.calls, fun u => (h'.flags u).trans (h.flags u)⟩

section

variable {w : Wrapper} {v v' : Heap} {y : Pointer} {own : Heap → Pointer → Nat} {made k : Kind} {x : Prog ε Value}
  {drops : Pointer → Prop}

theorem countP_idle {P : Call × Ret → Prop} [DecidablePred P] {cs : List (Call × Ret)}
    (hP : ∀ c : Call × Ret, c.1.fn.idle = true → ¬ P c) (hcs : ∀ c ∈ cs, c.1.fn.idle = true) : cs.countP P = 0 := by
  rw [List.countP_eq_zero]
  intro c hc
  rw [decide_eq_true_eq]
  exact hP c (hcs c hc)

/-- Idle calls leave every count as it was. -/
theorem counts_idle (h : Calls (fun c => c.1.fn.idle = true) v v') (y : Pointer) :
    handed v' y = handed v y ∧ freed v' y = freed v y ∧ lost v' y = lost v y := by
  obtain ⟨cs, hl, hcs⟩ := h
  unfold handed freed lost
  rw [hl, List.countP_append, List.countP_append, List.countP_append, countP_idle (fun _ => Fn.idle_not_hands) hcs,
    countP_idle (fun _ => Fn.idle_not_frees) hcs, countP_idle (fun _ => Fn.idle_not_loses) hcs]
  exact ⟨rfl, rfl, rfl⟩

/-- A handle given as `o`. -/
theorem given_iff (k : Kind) (o : Option Nat) (y : Pointer) :
    o.map (k, ·) = some (y.kind, y.addr) ↔ k = y.kind ∧ o = some y.addr := by
  cases o with
  | none => exact iff_of_false (by rintro ⟨⟩) (by rintro ⟨-, ⟨⟩⟩)
  | some a => exact ⟨fun he => by cases he; exact ⟨rfl, rfl⟩, fun ⟨hk, ha⟩ => by cases ha; rw [hk]; rfl⟩

theorem tally_hands {c : Call × Ret} {o : Option Nat} (h : c.1.hands c.2 = o.map (k, ·)) :
    tally (Hands y c) = gives k o y := by
  refine tally_congr ?_
  unfold Hands
  rw [h, given_iff]

theorem tally_loses {c : Call × Ret} {o : Option Nat} (h : c.1.drops c.2 = o.map (k, ·)) :
    tally (Loses y c) = gives k o y := by
  refine tally_congr ?_
  unfold Loses
  rw [h, given_iff]

theorem gives_none (k : Kind) (y : Pointer) : gives k none y = 0 := by
  refine tally_false ?_
  rintro ⟨-, h⟩; cases h

theorem returned_ok {a : Value} {v' : Heap} (h : x v = .ok a v') : returned x v = a.handle := by
  unfold returned; rw [h]

theorem returned_error {e : PyExc ε} {v' : Heap} (h : x v = .error e v') : returned x v = none := by
  unfold returned; rw [h]

theorem returned_none (hy : NoObject x) (v : Heap) : returned x v = none := by
  unfold returned
  cases hr : x v with
  | ok a t => exact hy v a t hr
  | error e t => rfl

/-- Idle calls, and nothing changes hands. -/
theorem Balanced.of_calls (hi : Calls (fun c => c.1.fn.idle = true) v (after x v)) (hr : returned x v = none)
    (ho : ∀ y, own (after x v) y = own v y) (he : ∀ u, u ≠ w.id → ((after x v).objs u).closed = (v.objs u).closed)
    (hs : isClosed w v = true → isClosed w (after x v) = true) (hd : ∀ y, ¬ drops y) :
    Balanced w own made x v drops := by
  refine ⟨fun y => ?_, fun y => ?_, he, hs⟩
  · obtain ⟨h1, h2, h3⟩ := counts_idle hi y
    rw [h1, h2, h3, ho, hr, gives_none]
    omega
  · rw [(counts_idle hi y).2.2]
    exact (and_iff_left (hd y)).symm

theorem Balanced.of_idle (hi : Idle v (after x v)) (hr : returned x v = none)
    (ho : ∀ y, own (after x v) y = own v y) (hd : ∀ y, ¬ drops y) : Balanced w own made x v drops :=
  Balanced.of_calls hi.calls hr ho (fun u _ => hi.flags u) (fun h => (hi.flags w.id).trans h) hd

/-- Nothing happened. -/
theorem Balanced.unchanged (ha : after x v = v) (hr : returned x v = none) (hd : ∀ y, ¬ drops y) :
    Balanced w own made x v drops := by
  have hi : Idle v (after x v) := by rw [ha]; exact Std.Refl.refl v
  exact Balanced.of_idle hi hr (fun y => by rw [ha]) hd

/-- The owner's account depends on its flag. -/
theorem owned_congr (h : ∀ u, (v'.objs u).closed = (v.objs u).closed) (y : Pointer) :
    owned k w v' y = owned k w v y := by
  unfold owned isClosed
  rw [h]

/-- One call. -/
theorem Balanced.one {c : Call × Ret} (hl : (after x v).log = v.log ++ [c])
    (hc : ∀ y, tally (Hands y c) + own v y = tally (Frees y.kind y.addr c) + tally (Loses y c) + own (after x v) y +
      gives made (returned x v) y)
    (hd : ∀ y, drops y ↔ Loses y c) (he : ∀ u, u ≠ w.id → ((after x v).objs u).closed = (v.objs u).closed)
    (hs : isClosed w v = true → isClosed w (after x v) = true) : Balanced w own made x v drops := by
  refine ⟨fun y => ?_, fun y => ?_, he, hs⟩
  · unfold handed freed lost
    rw [hl, countP_concat, countP_concat, countP_concat]
    have := hc y
    omega
  · unfold lost
    rw [hl, countP_concat, Nat.add_eq_zero_iff, tally_eq_zero, hd]

/-! ## Methods of the common shape -/

/-- The object that the method returns is of the handle its call is handed, unless that is lost. -/
def Method.Keeps (m : Method ε) (made : Kind) : Prop := ∀ (y : Pointer) (h : Nat) (vals : List Val) (ret : Ret),
  tally (Hands y (⟨m.fn, h, vals⟩, ret)) =
    tally (Loses y (⟨m.fn, h, vals⟩, ret)) + gives made (resultHandle (m.result ret)) y

theorem Method.keeps_idle {m : Method ε} (hi : m.fn.idle = true) (hr : ∀ ret, resultHandle (m.result ret) = none) :
    m.Keeps made := by
  intro y h vals ret
  rw [hr, gives_none, tally_false (Fn.idle_not_hands hi), tally_false (Fn.idle_not_loses hi)]

/-- A method of the common shape frees nothing. -/
theorem Method.balanced {m : Method ε} (hp : m.fn.plain k = true) (hk : m.Keeps made) (w : Wrapper) (v : Heap)
    (ho : ∀ v', (∀ u, (v'.objs u).closed = (v.objs u).closed) → ∀ y, own v' y = own v y) :
    Balanced w own made (m.run w) v fun y => m.Passes w v ∧ Loses y (⟨m.fn, w.handle, []⟩, v.ret v.log.length) := by
  -- refused before its call, or with the call made
  rcases m.run_cases w v with ⟨hn, e, h⟩ | ⟨hy, vals, h⟩
  · exact Balanced.unchanged (after_error h) (returned_error h) fun y hd => hn hd.1
  · have hafter : after (m.run w) v = logged w m.fn vals v := by
      rw [← after_raise (m.result (v.ret v.log.length)) (logged w m.fn vals v)]
      unfold after; rw [h]
    have hret : returned (m.run w) v = resultHandle (m.result (v.ret v.log.length)) := by
      unfold returned
      rw [h]
      cases m.result (v.ret v.log.length) <;> rfl
    have hflags : ∀ u, ((after (m.run w) v).objs u).closed = (v.objs u).closed := by rw [hafter]; exact fun _ => rfl
    refine Balanced.one (c := (⟨m.fn, w.handle, vals⟩, v.ret v.log.length)) (by rw [hafter]; rfl) (fun y => ?_)
      (fun y => and_iff_right hy) (fun u _ => hflags u) fun hc => (hflags w.id).trans hc
    rw [hk y, tally_false (Fn.plain_frees_none hp), hret, ho _ hflags]
    omega

end

end Nwep.Native
