/-
What one public operation can do, as one spec lemma per method body: the calls it appends to the log,
whether one of them is made with the object's own handle, and the closed flags it leaves.

On an object that is still open or on a method without a check, the handle is used exactly when the
parameters convert.
-/
import Nwep.Native.Classes

namespace Nwep.Native

open Lib

variable {ε α : Type} {w : Wrapper} {v v' : Heap} {k : Kind} {fs : List Fn} {acts : Prop}

/-! ## Programs of the wrappers, step by step -/

theorem checkOpen_closed (h : isClosed w v = true) (message : String) :
    (checkOpen w message : Prog ε Unit) v = .error (.valueError message) v := by
  unfold checkOpen
  rw [get_bind, if_pos h]; rfl

theorem checkOpen_open (h : isClosed w v = false) (message : String) :
    (checkOpen w message : Prog ε Unit) v = .ok () v := by
  unfold checkOpen
  rw [get_bind, if_neg (by rw [h]; decide)]; rfl

/-- The heap after a call on the wrapper's handle. -/
def logged (w : Wrapper) (fn : Fn) (args : List Val) (v : Heap) : Heap := v.called ⟨fn, w.handle, args⟩

theorem callOn_ok (fn : Fn) (args : List Val) (v : Heap) :
    (callOn w fn args : Prog ε Ret) v = .ok (v.ret v.log.length) (logged w fn args v) := rfl

/-- The heap after the wrapper's record was changed. -/
def withObj (w : Wrapper) (f : Obj → Obj) (v : Heap) : Heap :=
  { v with objs := Function.update v.objs w.id (f (v.objs w.id)) }

theorem setObj_ok (f : Obj → Obj) (v : Heap) : (setObj w f : Prog ε Unit) v = .ok () (withObj w f v) := rfl

theorem isClosed_withObj (f : Obj → Obj) (v : Heap) : isClosed w (withObj w f v) = (f (v.objs w.id)).closed := by
  show (Function.update v.objs w.id (f (v.objs w.id)) w.id).closed = _
  rw [Function.update_self]

/-- A change that leaves a closed record closed leaves every closed object closed. -/
theorem withObj_stays {f : Obj → Obj} (hf : ∀ o, o.closed = true → (f o).closed = true) (ho : v'.objs = v.objs)
    (u : Wrapper) (h : isClosed u v = true) : isClosed u (withObj w f v') = true := by
  show (Function.update v'.objs w.id (f (v'.objs w.id)) u.id).closed = true
  rw [ho]
  by_cases hu : u.id = w.id
  · rw [hu, Function.update_self]
    exact hf _ (hu ▸ h)
  · rw [Function.update_of_ne hu]; exact h

theorem isClosed_logged (u : Wrapper) (fn : Fn) (args : List Val) (v : Heap) :
    isClosed w (logged u fn args v) = isClosed w v := rfl

theorem get_ok (v : Heap) : (get : Prog ε Heap) v = .ok v v := rfl

/-! ## The effect of one operation -/

/-- The calls of one operation: in order among themselves, with the object closed after one that frees
its handle, one with its handle exactly if `acts`, and none outside `fs` or with another handle of
the kind. -/
structure Batch (k : Kind) (w : Wrapper) (fs : List Fn) (acts : Prop) (v' : Heap) (cs : List (Call × Ret)) : Prop where
  order : NoStale (Frees k w.handle) (Uses k w.handle) cs
  closes : Freed (Frees k w.handle) cs → isClosed w v' = true
  uses : (∃ c ∈ cs, Uses k w.handle c) ↔ acts
  only : ∀ c ∈ cs, c.1.fn ∈ fs ∧ (c.1.fn.kind = k → c.1.handle = w.handle)

/-- From `v` to `v'`: a batch of calls, and no object reopened. -/
structure Effect (k : Kind) (w : Wrapper) (fs : List Fn) (acts : Prop) (v v' : Heap) : Prop where
  calls : ∃ cs, v'.log = v.log ++ cs ∧ Batch k w fs acts v' cs
  stays : ∀ u, isClosed u v = true → isClosed u v' = true

/-- Calls with handles of other kinds only. -/
theorem Effect.foreign {cs : List (Call × Ret)} (hl : v'.log = v.log ++ cs)
    (hu : ∀ c ∈ cs, c.1.fn ∈ fs ∧ c.1.fn.kind ≠ k)
    (hs : ∀ u, isClosed u v = true → isClosed u v' = true) (ha : ¬ acts) : Effect k w fs acts v v' := by
  have hf : ¬ Freed (Frees k w.handle) cs := fun ⟨c, hc, hf⟩ => (hu c hc).2 hf.uses.1
  refine ⟨⟨cs, hl, noStale_of_not_freed hf, fun h => absurd h hf, ?_, fun c hc => ?_⟩, hs⟩
  · exact iff_of_false (fun ⟨c, hm, hc⟩ => (hu c hm).2 hc.1) ha
  · exact ⟨(hu c hc).1, fun h => absurd h (hu c hc).2⟩

/-- No call. -/
theorem Effect.quiet (hl : v'.log = v.log) (hs : ∀ u, isClosed u v = true → isClosed u v' = true)
    (ha : ¬ acts) : Effect k w fs acts v v' :=
  Effect.foreign (hl.trans (List.append_nil _).symm) (fun _ h => (List.not_mem_nil h).elim) hs ha

/-- One call with the object's handle. -/
theorem Effect.one {fn : Fn} {args : List Val} (hfn : fn ∈ fs) (hk : fn.kind = k)
    (hl : v'.log = (logged w fn args v).log) (hs : ∀ u, isClosed u v = true → isClosed u v' = true)
    (hf : Frees k w.handle (⟨fn, w.handle, args⟩, v.ret v.log.length) → isClosed w v' = true) (ha : acts) :
    Effect k w fs acts v v' := by
  refine ⟨⟨_, hl, noStale_singleton _, fun h => hf (freed_singleton.1 h), ?_, fun c hc => ?_⟩, hs⟩
  · exact iff_of_true ⟨_, List.mem_singleton_self _, hk, rfl⟩ ha
  · rw [List.mem_singleton.1 hc]; exact ⟨hfn, fun _ => rfl⟩

/-- A function of the kind that frees no handle. -/
def Fn.plain (fn : Fn) (k : Kind) : Bool := fn.kind == k && fn != k.free && fn != .clientConnectPoll

theorem Fn.plain_kind {fn : Fn} (h : fn.plain k = true) : fn.kind = k := by
  simp only [Fn.plain, Bool.and_eq_true, beq_iff_eq] at h
  exact h.1.1

theorem Fn.plain_not_frees {fn : Fn} (h : fn.plain k = true) (hd : Nat) (args : List Val) (ret : Ret) :
    ¬ Frees k hd (⟨fn, hd, args⟩, ret) := by
  simp only [Fn.plain, Bool.and_eq_true, bne_iff_ne] at h
  rintro ⟨-, hf | ⟨-, hp, -⟩⟩
  · exact h.1.2 hf
  · exact h.2 hp

/-- One call of such a function. -/
theorem Effect.call {fn : Fn} {args : List Val} (hp : fn.plain k = true) (hfn : fn ∈ fs)
    (hl : v'.log = (logged w fn args v).log) (hs : ∀ u, isClosed u v = true → isClosed u v' = true) (ha : acts) :
    Effect k w fs acts v v' :=
  Effect.one hfn (Fn.plain_kind hp) hl hs (fun hf => (Fn.plain_not_frees hp _ _ _ hf).elim) ha

/-- Several calls of which none frees the handle and the last is made with it. -/
theorem Effect.several {cs : List (Call × Ret)} {c : Call × Ret} (hl : v'.log = v.log ++ cs) (hm : c ∈ cs)
    (hc : Uses k w.handle c) (hf : ¬ Freed (Frees k w.handle) cs)
    (ho : ∀ c ∈ cs, c.1.fn ∈ fs ∧ (c.1.fn.kind = k → c.1.handle = w.handle))
    (hs : ∀ u, isClosed u v = true → isClosed u v' = true) (ha : acts) : Effect k w fs acts v v' :=
  ⟨⟨cs, hl, noStale_of_not_freed hf, fun h => absurd h hf, iff_of_true ⟨c, hm, hc⟩ ha, ho⟩, hs⟩

/-! ## Methods of the common shape -/

theorem not_closed (h : ¬ isClosed w v = true) : isClosed w v = false := by
  rw [← Bool.not_eq_true]; exact h

/-- The parameters convert, and the check lets the call pass. -/
def Method.Passes (m : Method ε) (w : Wrapper) (v : Heap) : Prop :=
  (m.guard.isSome = true → isClosed w v = false) ∧ ∃ vals, m.params = .ok vals

theorem Method.entry_cases (m : Method ε) (w : Wrapper) (v : Heap) :
    (∃ e, m.entry w v = .error e v ∧ isClosed w v = true ∧ m.guard.isSome = true) ∨
    (m.entry w v = .ok () v ∧ (m.guard.isSome = true → isClosed w v = false)) := by
  unfold Method.entry
  cases m.guard with
  | none => exact .inr ⟨rfl, by rintro ⟨⟩⟩
  | some message =>
    by_cases hc : isClosed w v = true
    · exact .inl ⟨_, checkOpen_closed hc message, hc, rfl⟩
    · exact .inr ⟨checkOpen_open (not_closed hc) message, fun _ => not_closed hc⟩

/-- A method passes and makes its one call, or makes none. -/
theorem Method.run_cases (m : Method ε) (w : Wrapper) (v : Heap) :
    (¬ m.Passes w v ∧ ∃ e, m.run w v = .error e v) ∨
    (m.Passes w v ∧
      ∃ vals, m.run w v = (raise (m.result (v.ret v.log.length)) : Prog ε Value) (logged w m.fn vals v)) := by
  unfold Method.run
  rcases m.entry_cases w v with ⟨e, h, hc, hg⟩ | ⟨h, hg⟩
  · refine .inl ⟨fun hp => ?_, e, bind_of_error h _⟩
    rw [hp.1 hg] at hc; cases hc
  rw [bind_of_ok h]
  cases hv : m.params with
  | error e =>
    refine .inl ⟨fun ⟨_, vals, hp⟩ => ?_, e, bind_of_error (raise_error e v) _⟩
    rw [hv] at hp; cases hp
  | ok vals =>
    refine .inr ⟨⟨hg, vals, hv⟩, vals, ?_⟩
    rw [bind_of_ok (raise_ok vals v), bind_of_ok (callOn_ok _ _ _)]

/-- The calls of a method: none where it raises on the way, else the one with its converted parameters. -/
theorem Method.run_calls (m : Method ε) (w : Wrapper) (v : Heap) :
    (¬ m.Passes w v ∧ callsOf (m.run w) v = []) ∨
    (m.Passes w v ∧ ∃ vals, m.params = .ok vals ∧
      callsOf (m.run w) v = [(⟨m.fn, w.handle, vals⟩, v.ret v.log.length)]) := by
  rcases m.run_cases w v with ⟨hn, e, he⟩ | ⟨hy, -⟩
  · exact .inl ⟨hn, callsOf_error he⟩
  obtain ⟨hg, vals, hv⟩ := hy
  refine .inr ⟨⟨hg, vals, hv⟩, vals, hv, callsOf_called ?_⟩
  unfold Method.run
  rcases m.entry_cases w v with ⟨e, he, hc, hs⟩ | ⟨he, -⟩
  · rw [hg hs] at hc; cases hc
  rw [after_bind_ok he, hv, after_bind_ok (raise_ok vals v), after_bind_ok (callOn_ok m.fn vals v), after_raise]
  rfl

/-- A method raises before its call, or makes it with its converted parameters. -/
theorem Method.oneCall {P : Call → Prop} (m : Method ε) (w : Wrapper) (v : Heap)
    (h : ∀ vals, m.params = .ok vals → P ⟨m.fn, w.handle, vals⟩) : OneCall P (m.run w) v := by
  rcases m.run_calls w v with ⟨hn, -⟩ | ⟨-, vals, hv, hc⟩
  · rcases m.run_cases w v with ⟨-, e, he⟩ | ⟨hy, -⟩
    · exact .inl ⟨e, he⟩
    · exact absurd hy hn
  · exact .inr ⟨_, h vals hv, hc⟩

theorem Method.effect {m : Method ε} (hp : m.fn.plain k = true) (w : Wrapper) (v : Heap) :
    Effect k w [m.fn] (m.Passes w v) v (after (m.run w) v) := by
  rcases m.run_cases w v with ⟨hn, e, h⟩ | ⟨hy, vals, h⟩
  · rw [after_error h]
    exact Effect.quiet rfl (fun _ => id) hn
  · have hafter : after (m.run w) v = logged w m.fn vals v := by
      rw [← after_raise (m.result (v.ret v.log.length)) (logged w m.fn vals v)]
      unfold after; rw [h]
    rw [hafter]
    exact Effect.call hp (List.mem_singleton_self _) rfl (fun _ => id) hy

theorem repr_effect {m : Method ε} (hp : m.fn.plain k = true) (w : Wrapper) (v : Heap) :
    Effect k w [m.fn] (isClosed w v = false ∧ ∃ vals, m.params = .ok vals) v (after (reprWith w m) v) := by
  unfold reprWith
  rw [after_bind_ok (get_ok v)]
  by_cases hc : isClosed w v = true
  · rw [if_pos hc]
    exact Effect.quiet rfl (fun _ => id) fun h => by rw [hc] at h; cases h.1
  · rw [if_neg hc]
    have hiff : m.Passes w v ↔ isClosed w v = false ∧ ∃ vals, m.params = .ok vals :=
      ⟨fun h => ⟨not_closed hc, h.2⟩, fun h => ⟨fun _ => not_closed hc, h.2⟩⟩
    exact propext hiff ▸ Method.effect hp w v

/-! ## The other bodies -/

/-- The heap after a `close` of an open object. -/
def shut (k : Kind) (w : Wrapper) (v : Heap) : Heap :=
  withObj w (fun o => { o with closed := true, callback := none }) (logged w k.free [] v)

/-- A second close finds the flag set and makes no call. -/
theorem close_closed (hc : isClosed w v = true) (k : Kind) : (closeWith w k : Prog ε Value) v = .ok .none v := by
  unfold closeWith
  rw [get_bind, if_pos hc]; rfl

theorem close_open (hc : isClosed w v = false) (k : Kind) :
    (closeWith w k : Prog ε Value) v = .ok .none (shut k w v) := by
  unfold closeWith
  rw [get_bind, hc, if_neg Bool.false_ne_true, bind_of_ok (callOn_ok _ _ _), bind_of_ok (setObj_ok _ _)]; rfl

/-- `close` frees the handle of an open object and closes it. -/
theorem close_effect (k : Kind) (w : Wrapper) (v : Heap) :
    Effect k w [k.free] (isClosed w v = false) v (after (closeWith w k : Prog ε Value) v) := by
  by_cases hc : isClosed w v = true
  · rw [after_ok (close_closed hc k)]
    exact Effect.quiet rfl (fun _ => id) fun h => by rw [hc] at h; cases h
  · rw [after_ok (close_open (not_closed hc) k)]
    exact Effect.one (List.mem_singleton_self _) k.free_kind rfl (withObj_stays (fun _ _ => rfl) rfl)
      (fun _ => isClosed_withObj _ _) (not_closed hc)

theorem setCallback_effect {fn : Fn} (hp : fn.plain k = true) (w : Wrapper) (hook : Option Nat) (v : Heap) :
    Effect k w [fn] True v (after (setCallback w fn hook : Prog ε Value) v) := by
  unfold setCallback
  cases hook with
  | none =>
    rw [after_bind_ok (callOn_ok _ _ _), after_bind_ok (setObj_ok _ _), after_pure]
    exact Effect.call hp (List.mem_singleton_self _) rfl (withObj_stays (fun _ h => h) rfl) trivial
  | some hook =>
    rw [after_bind_ok (setObj_ok _ _), after_bind_ok (callOn_ok _ _ _), after_pure]
    refine Effect.call hp (List.mem_singleton_self _) rfl (fun u h => ?_) trivial
    rw [isClosed_logged]
    exact withObj_stays (f := fun o => { o with callback := some hook }) (fun _ h => h) rfl u h

/-- The conversion of the cache parameter. -/
def cacheParam (cache : Option (Arg ε Nat)) : Except (PyExc ε) Val :=
  match cache with
  | some cache => ptr cache
  | none => .ok .null

theorem setCache_effect (w : Wrapper) (cache : Option (Arg ε Nat)) (v : Heap) :
    Effect .client w [.clientSetCache] (∃ val, cacheParam cache = .ok val) v (after (Client.setCache w cache) v) := by
  unfold Client.setCache
  show Effect _ w _ _ v (after (raise (cacheParam cache) >>= _) v)
  cases hv : cacheParam cache with
  | error e =>
    rw [after_bind_error (raise_error e v)]
    exact Effect.quiet rfl (fun _ => id) (by rintro ⟨val, hr⟩; cases hr)
  | ok val =>
    rw [after_bind_ok (raise_ok val v), after_bind_ok (callOn_ok _ _ _)]
    rcases check_cases (ε := ε) (v.ret v.log.length).rc (logged w .clientSetCache [val] v) with ⟨-, h⟩ | ⟨-, h⟩
    · rw [after_bind_ok h, after_bind_ok (setObj_ok _ _), after_pure]
      exact Effect.call rfl (List.mem_singleton_self _) rfl (withObj_stays (fun _ h => h) rfl) ⟨val, rfl⟩
    · rw [after_bind_error h]
      exact Effect.call rfl (List.mem_singleton_self _) rfl (fun _ => id) ⟨val, rfl⟩

theorem headers_effect (w : Wrapper) (v : Heap) :
    Effect .message w [] False v (after (Response.headers w : Prog ε Value) v) := by
  unfold Response.headers
  by_cases hc : isClosed w v = true
  · rw [after_bind_error (checkOpen_closed hc _)]
    exact Effect.quiet rfl (fun _ => id) id
  · rw [after_bind_ok (checkOpen_open (not_closed hc) _), after_bind_ok (setObj_ok _ _), after_pure]
    exact Effect.quiet rfl (withObj_stays (fun _ h => h) rfl) id

/-- The iterator exists and is not over. -/
def Iterating (w : Wrapper) (i : Nat) (v : Heap) : Prop := ∃ index, (v.objs w.id).iters[i]? = some (some index)

theorem next_effect (w : Wrapper) (i : Nat) (decode : Bytes → Arg ε Bytes) (v : Heap) :
    Effect .message w [.messageHeaderAt] (Iterating w i v) v (after (Response.next w i decode) v) := by
  unfold Response.next
  rw [after_bind_ok (get_ok v)]
  unfold Iterating
  rcases hi : (v.objs w.id).iters[i]? with _ | _ | index
  · exact Effect.quiet rfl (fun _ => id) (by rintro ⟨_, ⟨⟩⟩)
  · exact Effect.quiet rfl (fun _ => id) (by rintro ⟨_, ⟨⟩⟩)
  · show Effect _ w _ _ v (after (callOn w .messageHeaderAt [.int index] >>= _) v)
    rw [after_bind_ok (callOn_ok _ _ _)]
    by_cases h0 : (v.ret v.log.length).rc = 0
    · rw [if_pos h0]
      cases decode (v.ret v.log.length).data with
      | ok pair =>
        simp only
        rw [after_bind_ok (setObj_ok _ _), after_pure]
        exact Effect.call rfl (List.mem_singleton_self _) rfl (withObj_stays (fun _ h => h) rfl) ⟨index, rfl⟩
      | error e =>
        simp only
        rw [after_bind_ok (setObj_ok _ _)]
        show Effect _ w _ _ v (withObj w (fun o => { o with iters := o.iters.set i none }) _)
        exact Effect.call rfl (List.mem_singleton_self _) rfl (withObj_stays (fun _ h => h) rfl) ⟨index, rfl⟩
    · rw [if_neg h0, after_bind_ok (setObj_ok _ _), after_pure]
      exact Effect.call rfl (List.mem_singleton_self _) rfl (withObj_stays (fun _ h => h) rfl) ⟨index, rfl⟩

/-- The heap after a poll that ends the handshake. -/
def polled (w : Wrapper) (v : Heap) : Heap :=
  withObj w (fun o => { o with closed := true }) (logged w .clientConnectPoll [] v)

/-- How a poll of an open `Connecting` ends, by the code. -/
theorem poll_cases (hc : isClosed w v = false) {ret : Ret} (hret : v.ret v.log.length = ret) :
    (ret.rc = 1 ∧ (Connecting.poll w : Prog ε Value) v = .ok (.object w.handle) (polled w v)) ∨
    (ret.rc = 0 ∧ (Connecting.poll w : Prog ε Value) v = .ok .none (logged w .clientConnectPoll [] v)) ∨
    (1 < ret.rc ∧ (Connecting.poll w : Prog ε Value) v = .ok .none (polled w v)) ∨
    (ret.rc < 0 ∧ ∃ e, (Connecting.poll w : Prog ε Value) v = .error e (polled w v)) := by
  unfold Connecting.poll
  rw [bind_of_ok (checkOpen_open hc _), bind_of_ok (callOn_ok _ _ _), hret]
  by_cases h1 : ret.rc = 1
  · rw [if_pos h1, bind_of_ok (setObj_ok _ _)]
    exact .inl ⟨h1, rfl⟩
  rw [if_neg h1]
  by_cases h0 : ret.rc = 0
  · rw [if_pos h0]
    exact .inr (.inl ⟨h0, rfl⟩)
  rw [if_neg h0, bind_of_ok (setObj_ok _ _)]
  rcases check_cases (ε := ε) ret.rc (polled w v) with ⟨hn, h⟩ | ⟨hn, h⟩
  · exact .inr (.inr (.inl ⟨by omega, bind_of_ok h _⟩))
  · exact .inr (.inr (.inr ⟨hn, _, bind_of_error h _⟩))

/-- A poll that reports failure has freed the handle, and `_done` is set before it raises. -/
theorem poll_effect (w : Wrapper) (v : Heap) :
    Effect .client w [.clientConnectPoll] (isClosed w v = false) v (after (Connecting.poll w : Prog ε Value) v) := by
  by_cases hc : isClosed w v = true
  · have h : (Connecting.poll w : Prog ε Value) v = .error _ v := bind_of_error (checkOpen_closed hc _) _
    rw [after_error h]
    exact Effect.quiet rfl (fun _ => id) fun h => by rw [hc] at h; cases h
  have ho := not_closed hc
  have hpolled : Effect .client w [.clientConnectPoll] (isClosed w v = false) v (polled w v) :=
    Effect.one (List.mem_singleton_self _) rfl rfl (withObj_stays (fun _ _ => rfl) rfl)
      (fun _ => isClosed_withObj _ _) ho
  rcases poll_cases (ε := ε) ho rfl with ⟨-, h⟩ | ⟨h0, h⟩ | ⟨-, h⟩ | ⟨-, e, h⟩
  · rw [after_ok h]; exact hpolled
  · rw [after_ok h]
    refine Effect.one (List.mem_singleton_self _) rfl rfl (fun _ => id) ?_ ho
    rintro ⟨-, hf | ⟨-, -, hf⟩⟩
    · cases hf
    · rw [h0] at hf; omega
  · rw [after_ok h]; exact hpolled
  · rw [after_error h]; exact hpolled

/-- On a closed object nothing, on an open one one or two calls that free nothing. -/
theorem save_effect (w : Wrapper) (v : Heap) :
    Effect .trustStore w [.trustStoreSave] (isClosed w v = false) v (after (TrustStore.save w : Prog ε Value) v) := by
  unfold TrustStore.save
  by_cases hc : isClosed w v = true
  · rw [after_bind_error (checkOpen_closed hc _)]
    exact Effect.quiet rfl (fun _ => id) fun h => by rw [hc] at h; cases h
  have ho := not_closed hc
  have hplain : Fn.trustStoreSave.plain .trustStore = true := rfl
  rw [after_bind_ok (checkOpen_open ho _), after_bind_ok (callOn_ok _ _ _)]
  rcases check_cases (ε := ε) (v.ret v.log.length).rc (logged w .trustStoreSave [.null, .int 0] v) with ⟨-, h⟩ | ⟨-, h⟩
  · rw [after_bind_ok h, after_bind_ok (callOn_ok _ _ _)]
    have heff : Effect .trustStore w [.trustStoreSave] (isClosed w v = false) v
        (logged w .trustStoreSave [.int (v.ret v.log.length).out] (logged w .trustStoreSave [.null, .int 0] v)) := by
      refine Effect.several (List.append_assoc ..) (List.mem_cons_self ..) ⟨rfl, rfl⟩ ?_ ?_ (fun _ => id) ho
      · rw [freed_append, freed_singleton, freed_singleton]
        rintro (hf | hf)
        · exact Fn.plain_not_frees hplain _ _ _ hf
        · exact Fn.plain_not_frees hplain _ _ _ hf
      · intro c hm
        rcases List.mem_append.1 hm with hm | hm
        · rw [List.mem_singleton.1 hm]; exact ⟨List.mem_singleton_self _, fun _ => rfl⟩
        · rw [List.mem_singleton.1 hm]; exact ⟨List.mem_singleton_self _, fun _ => rfl⟩
    rcases check_cases (ε := ε) _ (logged w .trustStoreSave [.int (v.ret v.log.length).out]
        (logged w .trustStoreSave [.null, .int 0] v)) with ⟨-, h'⟩ | ⟨-, h'⟩
    · rw [after_bind_ok h', after_pure]; exact heff
    · rw [after_bind_error h']; exact heff
  · rw [after_bind_error h]
    exact Effect.call hplain (List.mem_singleton_self _) rfl (fun _ => id) ho

/-- The anchor's own call is reached when its parameters convert and the peer's id is known. -/
def PeerKnown (v : Heap) (conn : Arg ε Int) (anchorIds : List (Arg ε NodeId)) (now : Arg ε Int) : Prop :=
  (∃ ids, anchorIds.mapM id = .ok ids) ∧ (∃ c, conn = .ok c) ∧ 0 ≤ (v.ret v.log.length).rc ∧ ∃ n, now = .ok n

theorem int_cases (a : Arg ε Int) :
    (∃ n, a = .ok n ∧ int a = .ok (.int n)) ∨ ∃ e, a = .error e ∧ int a = .error (.raised e) := by
  cases a with
  | ok n => exact .inl ⟨n, rfl, rfl⟩
  | error e => exact .inr ⟨e, rfl, rfl⟩

theorem anchorDispatch_effect (w : Wrapper) (server : Nat) (conn : Arg ε Int) (anchorIds : List (Arg ε NodeId))
    (msg buf : Nat) (now : Arg ε Int) (used : Bool) (v : Heap) :
    Effect .anchorNode w [.serverGetPeerNodeid, .anchorNodeDispatch] (PeerKnown v conn anchorIds now) v
      (after (AnchorNode.dispatch w server conn anchorIds msg buf now used) v) := by
  unfold AnchorNode.dispatch
  cases hids : anchorIds.mapM id with
  | error e =>
    rw [after_bind_error (arg_error e v)]
    refine Effect.quiet rfl (fun _ => id) ?_
    rintro ⟨⟨_, h⟩, -⟩
    rw [hids] at h; cases h
  | ok ids =>
  rw [after_bind_ok (arg_ok ids v)]
  rcases int_cases conn with ⟨c, rfl, hconn⟩ | ⟨e, rfl, hconn⟩
  swap
  · rw [hconn, after_bind_error (raise_error _ v)]
    exact Effect.quiet rfl (fun _ => id) (by rintro ⟨-, ⟨_, h⟩, -⟩; cases h)
  -- The peer's id is read from the server the request came to, not with the anchor's handle.
  have hpeer : ∀ p ∈ [((⟨.serverGetPeerNodeid, server, [.int c]⟩ : Call), v.ret v.log.length)],
      p.1.fn ∈ [Fn.serverGetPeerNodeid, .anchorNodeDispatch] ∧ p.1.fn.kind ≠ .anchorNode := by
    intro p hp
    rw [List.mem_singleton.1 hp]
    exact ⟨List.mem_cons_self .., by rintro ⟨⟩⟩
  rw [hconn, after_bind_ok (raise_ok _ v), after_bind_ok (call_ok _ v)]
  rcases check_cases (ε := ε) (v.ret v.log.length).rc (v.called ⟨.serverGetPeerNodeid, server, [.int c]⟩)
    with ⟨hrc, h⟩ | ⟨hrc, h⟩
  swap
  · rw [after_bind_error h]
    refine Effect.foreign rfl hpeer (fun _ => id) ?_
    rintro ⟨-, -, h0, -⟩; omega
  rw [after_bind_ok h]
  rcases int_cases now with ⟨n, rfl, hnow⟩ | ⟨e, rfl, hnow⟩
  swap
  · rw [hnow, after_bind_error (raise_error _ _)]
    exact Effect.foreign rfl hpeer (fun _ => id) (by rintro ⟨-, -, -, _, h⟩; cases h)
  rw [hnow, after_bind_ok (raise_ok _ _), after_bind_ok (callOn_ok _ _ _), after_raise]
  refine Effect.several (List.append_assoc ..) (List.mem_append_right _ (List.mem_singleton_self _)) ⟨rfl, rfl⟩ ?_ ?_
    (fun _ => id) ⟨⟨ids, hids⟩, ⟨c, rfl⟩, hrc, n, rfl⟩
  · rw [freed_append, freed_singleton, freed_singleton]
    rintro (hf | hf)
    · exact (hpeer _ (List.mem_singleton_self _)).2 hf.uses.1
    · exact Fn.plain_not_frees (k := .anchorNode) rfl _ _ _ hf
  · intro p hm
    rcases List.mem_append.1 hm with hm | hm
    · exact ⟨(hpeer p hm).1, fun h => absurd h (hpeer p hm).2⟩
    · rw [List.mem_singleton.1 hm]
      exact ⟨List.mem_cons_of_mem _ (List.mem_singleton_self _), fun _ => rfl⟩

/-! ## Public operations -/

/-- The functions an operation may call. -/
def Body.fns (k : Cls) : Body ε → List Fn
  | method m | repr m => [m.fn]
  | headers => []
  | next .. => [.messageHeaderAt]
  | setCache _ => [.clientSetCache]
  | onRequestDone _ => [.clientSetRequestDone]
  | onAppend _ => [.logServerSetOnAppend]
  | poll => [.clientConnectPoll]
  | save => [.trustStoreSave]
  | anchorDispatch .. => [.serverGetPeerNodeid, .anchorNodeDispatch]
  | close => [k.kind.free]

/-- The operation looks at the closed flag before it calls the library. -/
def Body.guarded : Body ε → Bool
  | method m => m.guard.isSome
  | repr _ | headers | poll | save | close => true
  | next .. | setCache _ | onRequestDone _ | onAppend _ | anchorDispatch .. => false

/-- The parameters convert; an iterator is advanced that is not over; the anchor knows its peer. -/
def Body.Converts (w : Wrapper) (v : Heap) : Body ε → Prop
  | method m | repr m => ∃ vals, m.params = .ok vals
  | headers => False
  | next i _ => Iterating w i v
  | setCache cache => ∃ val, cacheParam cache = .ok val
  | anchorDispatch _ conn anchorIds _ _ now _ => PeerKnown v conn anchorIds now
  | onRequestDone _ | onAppend _ | poll | save | close => True

/-- The operation calls the library with the object's handle. -/
def Body.Acts (w : Wrapper) (v : Heap) (b : Body ε) : Prop :=
  (b.guarded = true → isClosed w v = false) ∧ b.Converts w v

/-- It makes no such call on a closed object it checks, or where the parameters do not convert. -/
theorem Body.not_acts {b : Body ε} :
    ¬ b.Acts w v ↔ (b.guarded = true ∧ isClosed w v = true) ∨ ¬ b.Converts w v := by
  unfold Body.Acts
  rw [not_and_or, Classical.not_imp, Bool.not_eq_false]

theorem Public.plain {k : Cls} {m : Method ε} (h : Public k (.method m)) : m.fn.plain k.kind = true := by
  cases h <;> rfl

theorem Public.repr_plain {k : Cls} {m : Method ε} (h : Public k (.repr m)) : m.fn.plain k.kind = true := by
  cases h <;> rfl

theorem Effect.congr {acts' : Prop} (h : acts ↔ acts') (he : Effect k w fns acts v v') : Effect k w fns acts' v v' :=
  propext h ▸ he

/-- The spec of every public operation. -/
theorem Public.effect {k : Cls} {b : Body ε} (h : Public k b) (w : Wrapper) (v : Heap) :
    Effect k.kind w (b.fns k) (b.Acts w v) v (after (b.run k w) v) := by
  cases b with
  | method m => exact Method.effect h.plain w v
  | repr m =>
    have hiff : isClosed w v = false ∧ (∃ vals, m.params = .ok vals) ↔ (Body.repr m).Acts w v :=
      ⟨fun h => ⟨fun _ => h.1, h.2⟩, fun h => ⟨h.1 rfl, h.2⟩⟩
    exact (repr_effect h.repr_plain w v).congr hiff
  | headers => cases h; exact (headers_effect w v).congr ⟨False.elim, fun h => h.2⟩
  | next i decode => cases h; exact (next_effect w i decode v).congr ⟨fun h => ⟨by rintro ⟨⟩, h⟩, fun h => h.2⟩
  | setCache cache => cases h; exact (setCache_effect w cache v).congr ⟨fun h => ⟨by rintro ⟨⟩, h⟩, fun h => h.2⟩
  | onRequestDone hook =>
    cases h
    exact (setCallback_effect rfl w hook v).congr ⟨fun h => ⟨by rintro ⟨⟩, h⟩, fun h => h.2⟩
  | onAppend hook =>
    cases h
    exact (setCallback_effect rfl w hook v).congr ⟨fun h => ⟨by rintro ⟨⟩, h⟩, fun h => h.2⟩
  | poll => cases h; exact (poll_effect w v).congr ⟨fun h => ⟨fun _ => h, trivial⟩, fun h => h.1 rfl⟩
  | save => cases h; exact (save_effect w v).congr ⟨fun h => ⟨fun _ => h, trivial⟩, fun h => h.1 rfl⟩
  | anchorDispatch server conn anchorIds msg buf now used =>
    cases h
    exact (anchorDispatch_effect w server conn anchorIds msg buf now used v).congr
      ⟨fun h => ⟨by rintro ⟨⟩, h⟩, fun h => h.2⟩
  | close => exact (close_effect k.kind w v).congr ⟨fun h => ⟨fun _ => h, trivial⟩, fun h => h.1 rfl⟩

end Nwep.Native
