/-
What the library keeps a pointer to, and the reference the wrapper keeps to it: the callback registered
by `on_request_done` or `on_append`, and the cache attached by `set_cache`.

The library's record of a handle and the wrapper's own change in separate steps, so the methods of the
two classes are given here as scripts, which the machine of `Lib.Reentry` runs: inside any call but a
registration the library may run the registered hook, and the hook may call methods of its own.
-/
import Nwep.Lib.Reentry
import Nwep.Native.Effect

namespace Nwep.Native

open Lib

variable {ε : Type} {k : Cls} {w : Wrapper}

/-! ## The methods as scripts -/

abbrev Routine (ε : Type) := Script Call Ret (Nat → Obj) (Except (PyExc ε) Value)

/-- Change the wrapper's record, then go on. -/
def putObj (w : Wrapper) (f : Obj → Obj) (t : Routine ε) : Routine ε :=
  Script.put (fun o => Function.update o w.id (f (o w.id))) t

def Method.script (w : Wrapper) (m : Method ε) : Routine ε :=
  let body : Routine ε := match m.params with
    | .ok vals => .call ⟨m.fn, w.handle, vals⟩ fun ret => .ret (m.result ret)
    | .error e => .ret (.error e)
  match m.guard with
  | some message => .look fun o => if (o w.id).closed then .ret (.error (.valueError message)) else body
  | none => body

/-- `on_request_done` and `on_append`. -/
def callbackScript (w : Wrapper) (fn : Fn) : Option Nat → Routine ε
  | none => .call ⟨fn, w.handle, [.null, .null]⟩ fun _ =>
    putObj w (fun o => { o with callback := none }) (.ret (.ok .none))
  | some hook => putObj w (fun o => { o with callback := some hook })
    (.call ⟨fn, w.handle, [.ptr hook, .null]⟩ fun _ => .ret (.ok .none))

/-- The pointer passed as a parameter. -/
def Val.pointer : Val → Option Nat
  | .ptr p => some p
  | _ => none

/-- `set_cache`, with its parameter converted. -/
def cacheScript (w : Wrapper) : Except (PyExc ε) Val → Routine ε
  | .error e => .ret (.error e)
  | .ok val => .call ⟨.clientSetCache, w.handle, [val]⟩ fun ret => match checkCode ret.rc with
    | .error e => .ret (.error e)
    | .ok _ => putObj w (fun o => { o with cache := val.pointer }) (.ret (.ok .none))

def closeScript (w : Wrapper) (k : Kind) : Routine ε :=
  .look fun o => if (o w.id).closed then .ret (.ok .none)
    else .call ⟨k.free, w.handle, []⟩ fun _ =>
      putObj w (fun o => { o with closed := true, callback := none }) (.ret (.ok .none))

/-- What is called on an object that has registrations. -/
inductive Use (ε : Type) where
  | method (m : Method ε)
  | repr (m : Method ε)
  | setCache (cache : Option (Arg ε Nat))
  | onRequestDone (hook : Option Nat)
  | onAppend (hook : Option Nat)
  | close

def Use.body : Use ε → Body ε
  | method m => .method m
  | repr m => .repr m
  | setCache cache => .setCache cache
  | onRequestDone hook => .onRequestDone hook
  | onAppend hook => .onAppend hook
  | close => .close

def Use.script (k : Cls) (w : Wrapper) : Use ε → Routine ε
  | method m => m.script w
  | repr m => .look fun o => if (o w.id).closed then .ret (.ok .none) else m.script w
  | setCache cache => cacheScript w (cacheParam cache)
  | onRequestDone hook => callbackScript w .clientSetRequestDone hook
  | onAppend hook => callbackScript w .logServerSetOnAppend hook
  | close => closeScript w k.kind

/-- The hook set, if one is. -/
def Use.sets : Use ε → Option Nat
  | onRequestDone hook | onAppend hook => hook
  | _ => none

/-- Every public operation of the two classes is one of these. -/
theorem exists_use {b : Body ε} (hk : k = .client ∨ k = .logServer) (h : Public k b) : ∃ u : Use ε, u.body = b := by
  rcases hk with rfl | rfl
  · cases h with
    | clientSetCache cache => exact ⟨.setCache cache, rfl⟩
    | clientOnRequestDone hook => exact ⟨.onRequestDone hook, rfl⟩
    | clientRepr => exact ⟨.repr _, rfl⟩
    | close => exact ⟨.close, rfl⟩
    | _ => exact ⟨.method _, rfl⟩
  · cases h with
    | logServerOnAppend hook => exact ⟨.onAppend hook, rfl⟩
    | close => exact ⟨.close, rfl⟩
    | logServerDispatch => exact ⟨.method _, rfl⟩

/-! ### The scripts are the methods -/

theorem prog_ret (x : Except (PyExc ε) Value) : (Script.ret x : Routine ε).prog = raise x := by
  cases x <;> rfl

theorem Method.script_prog (m : Method ε) : (m.script w).prog = m.run w := by
  funext v
  have hbody : (match m.params with
      | .ok vals => .call ⟨m.fn, w.handle, vals⟩ fun ret => .ret (m.result ret)
      | .error e => .ret (.error e) : Routine ε).prog =
        raise m.params >>= fun vals => callOn w m.fn vals >>= fun ret => raise (m.result ret) := by
    cases m.params with
    | error e => rfl
    | ok vals =>
      show (do (Script.ret (m.result (← call _)) : Routine ε).prog) = _
      simp only [prog_ret]
      rfl
  unfold Method.script Method.run Method.entry
  cases m.guard with
  | none => exact congrFun hbody v
  | some message =>
    show (if isClosed w v = true then _ else _ : Routine ε).prog v = _
    cases hc : isClosed w v with
    | true => rw [bind_of_error (checkOpen_closed hc message)]; rfl
    | false => rw [bind_of_ok (checkOpen_open hc message)]; exact congrFun hbody v

theorem callback_prog (fn : Fn) (hook : Option Nat) :
    (callbackScript w fn hook : Routine ε).prog = setCallback w fn hook := by
  cases hook <;> rfl

theorem cache_prog (cache : Option (Arg ε Nat)) :
    (cacheScript w (cacheParam cache) : Routine ε).prog = Client.setCache w cache := by
  funext v
  show _ = (raise (cacheParam cache) >>= _) v
  cases cacheParam cache with
  | error e => rfl
  | ok val =>
    rw [bind_of_ok (raise_ok val v), bind_of_ok (callOn_ok _ _ _)]
    show (match checkCode (v.ret v.log.length).rc with
      | .error e => .ret (.error e)
      | .ok _ => putObj w _ _ : Routine ε).prog (logged w .clientSetCache [val] v) = _
    unfold check
    cases checkCode (ε := ε) (v.ret v.log.length).rc with
    | error e => rfl
    | ok code => rfl

theorem close_prog (k : Kind) : (closeScript w k : Routine ε).prog = closeWith w k := by
  funext v
  show (if isClosed w v = true then _ else _ : Routine ε).prog v = _
  unfold closeWith
  rw [get_bind]
  cases isClosed w v with
  | true => rfl
  | false => rfl

/-- Run without hooks, the script of an operation is the operation. -/
theorem Use.script_prog (u : Use ε) : (u.script k w).prog = u.body.run k w := by
  cases u with
  | method m => exact m.script_prog
  | repr m =>
    funext v
    show (if isClosed w v = true then _ else m.script w : Routine ε).prog v = reprWith w m v
    unfold reprWith
    rw [get_bind]
    cases isClosed w v with
    | true => rfl
    | false => exact congrFun m.script_prog v
  | setCache cache => exact cache_prog cache
  | onRequestDone hook => exact callback_prog _ hook
  | onAppend hook => exact callback_prog _ hook
  | close => exact close_prog k.kind

/-! ## The library's record -/

/-- What the library has registered with a handle. -/
structure Registry where
  live : Bool := true
  callback : Option Nat := none
  cache : Option Nat := none

/-- The library takes a callback or a cache. -/
def Fn.registers : Fn → Bool
  | clientSetRequestDone | logServerSetOnAppend | clientSetCache => true
  | _ => false

/-- What a returning call leaves registered: a registration that failed leaves the previous one. -/
def Registry.reply (c : Call) (ret : Ret) (g : Registry) : Registry :=
  match c.fn with
  | .clientSetRequestDone => if ret.rc < 0 then g else { g with callback := c.args.head?.bind Val.pointer }
  | .clientSetCache => if ret.rc < 0 then g else { g with cache := c.args.head?.bind Val.pointer }
  -- a function without a code
  | .logServerSetOnAppend => { g with callback := c.args.head?.bind Val.pointer }
  | fn => if fn = fn.kind.free then { g with live := false } else g

/-- The records of all handles. -/
abbrev Registries := Kind × Nat → Registry

def Call.key (c : Call) : Kind × Nat := (c.fn.kind, c.handle)

/-- A hook runs inside a call with a live handle that has a callback registered, the registrations apart. -/
def library : Reentry.Library Call Ret Registries where
  reply c ret y := Function.update y c.key ((y c.key).reply c ret)
  fires c y := !c.fn.registers && (y c.key).live && (y c.key).callback.isSome

/-! ## The objects -/

/-- The clients and log servers of a process: an object has one class and one handle, and no two of
a class share a handle. -/
structure Fleet where
  owns : Cls → Wrapper → Prop
  cls : ∀ {k w}, owns k w → k = .client ∨ k = .logServer
  object : ∀ {k l w u}, owns k w → owns l u → w.id = u.id → k = l ∧ w = u
  handle : ∀ {k l w u}, owns k w → owns l u → k.kind = l.kind → w.handle = u.handle → w.id = u.id

/-- An operation on an object of the fleet. -/
structure Start (ε : Type) (F : Fleet) where
  cls : Cls
  on : Wrapper
  use : Use ε
  owned : F.owns cls on
  isPublic : Public cls use.body

def Start.script {F : Fleet} (op : Start ε F) : Routine ε := op.use.script op.cls op.on

abbrev Process (ε : Type) := Reentry.State Call Ret (Nat → Obj) Registries (Except (PyExc ε) Value)

/-- Every object open, nothing registered. -/
def untouched : Process ε := ⟨fun _ => {}, fun _ => {}, []⟩

abbrev processStep (F : Fleet) : Process ε → Reentry.Act (Start ε F) Ret → Option (Process ε) :=
  Reentry.step library Start.script

/-- Left alone, an operation leaves the objects as the method does, and the library has replied to the calls
that the method logs. -/
theorem Start.runs_alone {F : Fleet} {op : Start ε F} {v : Heap} {s t : Process ε} (hv : s.mine = v.objs)
    (h : processStep F s (.start op) = some t) : ∃ as cs,
      (after (op.use.body.run op.cls op.on) v).log = v.log ++ cs ∧ runs (processStep F) t as =
        some ⟨(after (op.use.body.run op.cls op.on) v).objs, cs.foldl (fun y c => library.reply c.1 c.2 y) s.theirs,
          s.frames⟩ := by
  obtain ⟨-, rfl⟩ := Reentry.start_spec h
  rw [hv, ← op.use.script_prog]
  exact Reentry.runs_alone op.script s.frames v s.theirs

/-- What a live handle has registered, the wrapper holds. -/
def Held (g : Registry) (o : Obj) : Prop :=
  g.live = true → (∀ p, g.callback = some p → o.callback = some p) ∧ ∀ p, g.cache = some p → o.cache = some p

/-- Whatever the library points at is kept alive. -/
def KeptAlive (F : Fleet) (x : Nat → Obj) (y : Registries) : Prop :=
  ∀ k w, F.owns k w → Held (y (k.kind, w.handle)) (x w.id)

/-- The handle is dead, or has no callback registered. -/
def Registry.Vacant (g : Registry) : Prop := g.live = true → g.callback = none

instance (g : Registry) : Decidable g.Vacant := inferInstanceAs (Decidable (_ → _))

/-- A hook is set only where the library has no callback. -/
def MayStart {F : Fleet} (op : Start ε F) (_ : Nat → Obj) (y : Registries) : Prop :=
  op.use.sets ≠ none → (y (op.cls.kind, op.on.handle)).Vacant

instance {F : Fleet} (op : Start ε F) (x : Nat → Obj) (y : Registries) : Decidable (MayStart op x y) :=
  inferInstanceAs (Decidable (_ → _))

/-- A clearing fails only where the library has no callback. -/
def MayReply (c : Call) (ret : Ret) (_ : Nat → Obj) (y : Registries) : Prop :=
  c.fn = .clientSetRequestDone → c.args.head? = some .null → ret.rc < 0 → (y c.key).Vacant

instance (c : Call) (ret : Ret) (x : Nat → Obj) (y : Registries) : Decidable (MayReply c ret x y) :=
  inferInstanceAs (Decidable (_ → _ → _ → _))

variable {F : Fleet} {x : Nat → Obj} {y : Registries}

theorem Held.vacant {g : Registry} {o o' : Obj} (h : Held g o) (hv : g.Vacant) (hc : o'.cache = o.cache) :
    Held g o' := by
  refine fun hl => ⟨fun p hp => ?_, fun p hp => ?_⟩
  · rw [hv hl] at hp; cases hp
  · rw [hc]; exact (h hl).2 p hp

/-- One object's record and its handle's change, and no other's. -/
theorem KeptAlive.update (h : KeptAlive F x y) (hw : F.owns k w) {g : Registry} {o : Obj} (hg : Held g o) :
    KeptAlive F (Function.update x w.id o) (Function.update y (k.kind, w.handle) g) := by
  intro l u hu
  by_cases hid : u.id = w.id
  · obtain ⟨rfl, rfl⟩ := F.object hu hw hid
    rw [Function.update_self, Function.update_self]; exact hg
  · rw [Function.update_of_ne hid, Function.update_of_ne]
    · exact h l u hu
    · rintro hk
      obtain ⟨hk, hh⟩ := Prod.mk.inj hk
      exact hid (F.handle hu hw hk hh)

theorem KeptAlive.put (h : KeptAlive F x y) (hw : F.owns k w) {o : Obj} (ho : Held (y (k.kind, w.handle)) o) :
    KeptAlive F (Function.update x w.id o) y := by
  have := h.update hw ho
  rwa [Function.update_eq_self] at this

theorem KeptAlive.reply (h : KeptAlive F x y) (hw : F.owns k w) {g : Registry} (hg : Held g (x w.id)) :
    KeptAlive F x (Function.update y (k.kind, w.handle) g) := by
  have := h.update hw hg
  rwa [Function.update_eq_self] at this

/-! ## Every operation is safe -/

theorem not_hosts {c : Call} (h : c.fn.registers = true) : ¬ library.Hosts c := by
  rintro ⟨y, hy⟩
  simp [library, h] at hy

theorem reply_plain {c : Call} {ret : Ret} {g : Registry} (hr : c.fn.registers = false) (hf : c.fn ≠ c.fn.kind.free) :
    g.reply c ret = g := by
  unfold Registry.reply
  split
  · rename_i h; rw [h] at hr; cases hr
  · rename_i h; rw [h] at hr; cases hr
  · rename_i h; rw [h] at hr; cases hr
  · exact if_neg hf

/-- A reply changes the record of the handle that the call was made with. -/
theorem library_reply (fn : Fn) (hk : fn.kind = k.kind) (args : List Val) (ret : Ret) (y : Registries) :
    library.reply ⟨fn, w.handle, args⟩ ret y =
      Function.update y (k.kind, w.handle) ((y (k.kind, w.handle)).reply ⟨fn, w.handle, args⟩ ret) := by
  rw [← hk]; rfl

/-- A hook is registered or cleared, or the call failed. -/
theorem reply_callback {fn : Fn} (hfn : fn = .clientSetRequestDone ∨ fn = .logServerSetOnAppend) (h : Nat)
    (cb : Val) (ret : Ret) (g : Registry) :
    (fn = .clientSetRequestDone ∧ ret.rc < 0 ∧ g.reply ⟨fn, h, [cb, .null]⟩ ret = g) ∨
      g.reply ⟨fn, h, [cb, .null]⟩ ret = { g with callback := cb.pointer } := by
  rcases hfn with rfl | rfl
  · by_cases hc : ret.rc < 0
    · exact .inl ⟨rfl, hc, if_pos hc⟩
    · exact .inr (if_neg hc)
  · exact .inr rfl

theorem Public.method_registers {m : Method ε} (h : Public k (.method m)) : m.fn.registers = false := by
  cases h <;> rfl

theorem Public.repr_registers {m : Method ε} (h : Public k (.repr m)) : m.fn.registers = false := by
  cases h <;> rfl

abbrev SafeIn (F : Fleet) (t : Routine ε) (x : Nat → Obj) (y : Registries) : Prop :=
  Reentry.Safe library (KeptAlive F) MayReply t x y

/-- One call that neither registers nor frees. -/
theorem safe_method {m : Method ε} (hr : m.fn.registers = false) (hf : m.fn.plain k.kind = true)
    (h : KeptAlive F x y) : SafeIn F (m.script w) x y := by
  have hcall (vals : List Val) :
      SafeIn F (.call ⟨m.fn, w.handle, vals⟩ fun ret => .ret (m.result ret) : Routine ε) x y := by
    refine Reentry.safe_call h fun ret x' y' h' _ => ?_
    have hfree : m.fn ≠ m.fn.kind.free := by
      rw [Fn.plain_kind hf]
      simp only [Fn.plain, Bool.and_eq_true, bne_iff_ne] at hf
      exact hf.1.2
    show KeptAlive F x' (Function.update y' _ ((y' _).reply _ ret))
    rw [reply_plain hr hfree, Function.update_eq_self]; exact h'
  have hbody : SafeIn F (match m.params with
      | .ok vals => .call ⟨m.fn, w.handle, vals⟩ fun ret => .ret (m.result ret)
      | .error e => .ret (.error e) : Routine ε) x y := by
    cases m.params with
    | error e => exact h
    | ok vals => exact hcall vals
  unfold Method.script
  cases m.guard with
  | none => exact hbody
  | some message =>
    show SafeIn F (if (x w.id).closed = true then _ else _ : Routine ε) x y
    split
    · exact h
    · exact hbody

theorem safe_close (hw : F.owns k w) (h : KeptAlive F x y) : SafeIn F (closeScript w k.kind : Routine ε) x y := by
  show SafeIn F (if (x w.id).closed = true then _ else _ : Routine ε) x y
  split
  · exact h
  · refine Reentry.safe_call h fun ret x' y' h' _ => ?_
    have hkey : Call.key ⟨k.kind.free, w.handle, []⟩ = (k.kind, w.handle) := by
      unfold Call.key
      rw [Kind.free_kind]
    have hdead (g : Registry) : (g.reply ⟨k.kind.free, w.handle, []⟩ ret).live = false := by
      rcases F.cls hw with rfl | rfl <;> rfl
    show KeptAlive F (Function.update x' w.id _) (Function.update y' (Call.key _) _)
    rw [hkey]
    refine h'.update hw fun hl => ?_
    rw [hdead] at hl; cases hl

theorem safe_setCache {val : Except (PyExc ε) Val} (hk : Kind.client = k.kind) (hw : F.owns k w)
    (h : KeptAlive F x y) : SafeIn F (cacheScript w val) x y := by
  cases val with
  | error e => exact h
  | ok val =>
    refine Reentry.safe_call_of_not_hosts (not_hosts rfl) h fun ret _ => ?_
    rw [library_reply .clientSetCache hk]
    have hheld := h k w hw
    by_cases hc : ret.rc < 0
    · have hcode : checkCode ret.rc = (.error (.nwep ret.rc) : Except (PyExc ε) Int) := if_pos hc
      simp only [hcode]
      refine h.reply hw ?_
      show Held (if ret.rc < 0 then _ else _) _
      rw [if_pos hc]; exact hheld
    · have hcode : checkCode ret.rc = (.ok ret.rc : Except (PyExc ε) Int) := if_neg hc
      simp only [hcode]
      -- the reference is replaced by the cache that the library has taken
      refine h.update hw ?_
      show Held (if ret.rc < 0 then _ else _) _
      rw [if_neg hc]
      exact fun hl => ⟨(hheld hl).1, fun p hp => hp⟩

/-- A hook set where there was none, or cleared: the reference is put before the call, and dropped after. -/
theorem safe_callback {fn : Fn} (hfn : fn = .clientSetRequestDone ∨ fn = .logServerSetOnAppend)
    (hk : fn.kind = k.kind) (hw : F.owns k w) (h : KeptAlive F x y) {hook : Option Nat}
    (hs : hook ≠ none → (y (k.kind, w.handle)).Vacant) : SafeIn F (callbackScript w fn hook : Routine ε) x y := by
  have hhost (args : List Val) : ¬ library.Hosts ⟨fn, w.handle, args⟩ :=
    not_hosts (by rcases hfn with rfl | rfl <;> rfl)
  cases hook with
  | none =>
    refine Reentry.safe_call_of_not_hosts (hhost _) h fun ret hr => ?_
    rw [library_reply fn hk]
    refine h.update hw ?_
    rcases reply_callback hfn w.handle .null ret _ with ⟨hf, hc, he⟩ | he
    · have hvac := hr hf rfl hc
      rw [show Call.key ⟨fn, w.handle, [.null, .null]⟩ = (k.kind, w.handle) from
        congrArg (·, w.handle) hk] at hvac
      rw [he]; exact (h k w hw).vacant hvac rfl
    · rw [he]
      exact fun hl => ⟨fun p hp => (by cases hp), fun p hp => (h k w hw hl).2 p hp⟩
  | some hook =>
    have hvac := hs (by simp)
    have hput : KeptAlive F (Function.update x w.id { x w.id with callback := some hook }) y :=
      h.put hw ((h k w hw).vacant hvac rfl)
    refine Reentry.safe_call_of_not_hosts (hhost _) hput fun ret _ => ?_
    rw [library_reply fn hk]
    refine hput.reply hw ?_
    rw [Function.update_self]
    rcases reply_callback hfn w.handle (.ptr hook) ret _ with ⟨-, -, he⟩ | he
    · rw [he]; exact (h k w hw).vacant hvac rfl
    · rw [he]
      exact fun hl => ⟨fun p hp => hp, fun p hp => (h k w hw hl).2 p hp⟩

theorem safe_start (op : Start ε F) (h : KeptAlive F x y) (hs : MayStart op x y) : SafeIn F op.script x y := by
  obtain ⟨k, w, use, hw, hp⟩ := op
  cases use with
  | method m => exact safe_method hp.method_registers hp.plain h
  | repr m =>
    show SafeIn F (if (x w.id).closed = true then _ else m.script w : Routine ε) x y
    split
    · exact h
    · exact safe_method hp.repr_registers hp.repr_plain h
  | setCache cache => cases hp; exact safe_setCache rfl hw h
  | onRequestDone hook =>
    cases hp
    exact safe_callback (.inl rfl) rfl hw h hs
  | onAppend hook =>
    cases hp
    exact safe_callback (.inr rfl) rfl hw h hs
  | close => exact safe_close hw h

theorem untouched_ok (F : Fleet) : Reentry.Ok library (KeptAlive F) MayReply (untouched : Process ε) :=
  fun _ _ _ _ => ⟨fun _ hp => (by cases hp), fun _ hp => (by cases hp)⟩

/-- In every run in which a hook is set only where the library has no callback and a clearing fails only
there, whatever else the hooks do and the library answers: at every library call and after every
operation, the callback and the cache registered with a live handle are held by its wrapper. -/
theorem registered_kept_alive (F : Fleet) {as : List (Reentry.Act (Start ε F) Ret)} {s : Process ε}
    (h : runs (processStep F) untouched as = some s)
    (hm : Meets (processStep F) (Reentry.Allowed MayReply MayStart) untouched as) (ho : s.observed = true) :
    KeptAlive F s.mine s.theirs :=
  Reentry.observed_of_meets (fun op _ _ hk hs => safe_start op hk hs)
    (untouched_ok F) hm h ho

/-- A client and a log server. -/
def clientAndLog : Fleet where
  owns k w := k = .client ∧ w = ⟨0, 10⟩ ∨ k = .logServer ∧ w = ⟨1, 20⟩
  cls := by rintro _ _ (⟨rfl, -⟩ | ⟨rfl, -⟩) <;> simp
  object := by
    rintro _ _ _ _ (⟨rfl, rfl⟩ | ⟨rfl, rfl⟩) (⟨rfl, rfl⟩ | ⟨rfl, rfl⟩) h <;> first | exact ⟨rfl, rfl⟩ | cases h
  handle := by
    rintro _ _ _ _ (⟨rfl, rfl⟩ | ⟨rfl, rfl⟩) (⟨rfl, rfl⟩ | ⟨rfl, rfl⟩) h _ <;> first | rfl | cases h

def onClient (u : Use Unit) (h : Public .client u.body) : Reentry.Act (Start Unit clientAndLog) Ret :=
  .start ⟨.client, ⟨0, 10⟩, u, .inl ⟨rfl, rfl⟩, h⟩

def onLog (u : Use Unit) (h : Public .logServer u.body) : Reentry.Act (Start Unit clientAndLog) Ret :=
  .start ⟨.logServer, ⟨1, 20⟩, u, .inr ⟨rfl, rfl⟩, h⟩

def answer (rc : Int) : Reentry.Act (Start Unit clientAndLog) Ret := .reply ⟨rc, 0, []⟩

/-- The hook of the client clears itself inside `tick` and sets another one, the cache is refused, and
the log server gets a hook and is closed. -/
def hooksInTurn : List (Reentry.Act (Start Unit clientAndLog) Ret) :=
  [onClient (.onRequestDone (some 5)) (.clientOnRequestDone _), .go, .go, answer 0, .go,
    onClient (.method (Client.tick (.ok 1))) (.clientTick _), .go, .fire,
    onClient (.onRequestDone none) (.clientOnRequestDone _), .go, answer 0, .go, .go,
    onClient (.onRequestDone (some 6)) (.clientOnRequestDone _), .go, .go, answer 0, .go, .leave, answer 0, .go,
    onClient (.setCache (some (.ok 7))) (.clientSetCache _), .go, answer (-1), .go,
    onLog (.onAppend (some 8)) (.logServerOnAppend _), .go, .go, answer 0, .go,
    onLog .close (.close _), .go, .go, answer 0, .go, .go]

theorem registered_kept_alive_in_turn : ∃ s,
    runs (processStep clientAndLog) untouched hooksInTurn = some s ∧
      KeptAlive clientAndLog s.mine s.theirs := by
  have h : runs (processStep clientAndLog) untouched hooksInTurn = some _ := rfl
  exact ⟨_, h, registered_kept_alive clientAndLog h (by decide) rfl⟩

/-- The hook of a client is replaced, and the library refuses the second one. -/
def replaced : List (Reentry.Act (Start Unit clientAndLog) Ret) :=
  [onClient (.onRequestDone (some 5)) (.clientOnRequestDone _), .go, .go, answer 0, .go,
    onClient (.onRequestDone (some 6)) (.clientOnRequestDone _), .go, .go, answer (-1), .go]

/-- At the second registration, and after it, the library points at the first trampoline. -/
theorem replaced_dangles : ∃ s t, runs (processStep clientAndLog) untouched (replaced.take 7) = some s ∧
    s.observed = true ∧ ¬ KeptAlive clientAndLog s.mine s.theirs ∧
    runs (processStep clientAndLog) untouched replaced = some t ∧
    t.frames = [] ∧ ¬ KeptAlive clientAndLog t.mine t.theirs := by
  refine ⟨_, _, rfl, rfl, fun h => ?_, rfl, rfl, fun h => ?_⟩
  · exact absurd ((h .client ⟨0, 10⟩ (.inl ⟨rfl, rfl⟩) rfl).1 5 rfl) (by decide)
  · exact absurd ((h .client ⟨0, 10⟩ (.inl ⟨rfl, rfl⟩) rfl).1 5 rfl) (by decide)

/-! ## No weaker condition -/

theorem Registry.not_vacant {g : Registry} (h : ¬ g.Vacant) : g.live = true ∧ ∃ p, g.callback = some p := by
  obtain ⟨hl, hc⟩ := Classical.not_imp.1 h
  exact ⟨hl, Option.ne_none_iff_exists'.1 hc⟩

theorem KeptAlive.lost {p : Nat} {o : Obj} (hw : F.owns k w) (hl : (y (k.kind, w.handle)).live = true)
    (hp : (y (k.kind, w.handle)).callback = some p) (ho : o.callback ≠ some p) :
    ¬ KeptAlive F (Function.update x w.id o) y := by
  intro h
  have := (h k w hw hl).1 p hp
  rw [Function.update_self] at this
  exact ho this

variable {s t : Process ε} {op : Start ε F}

/-- A trampoline made for a hook takes the place of the one that the library still has, before the library
is called. -/
theorem setting_dangles (h : processStep F s (.start op) = some t) (hs : ¬ MayStart op s.mine s.theirs)
    (hnew : op.use.sets ≠ (s.theirs (op.cls.kind, op.on.handle)).callback) :
    ∃ u, processStep F t .go = some u ∧ u.observed = true ∧ ¬ KeptAlive F u.mine u.theirs := by
  obtain ⟨-, rfl⟩ := Reentry.start_spec h
  obtain ⟨hset, hv⟩ := Classical.not_imp.1 hs
  obtain ⟨hl, p, hp⟩ := Registry.not_vacant hv
  rw [hp] at hnew
  obtain ⟨k, w, use, hw, hpub⟩ := op
  cases use with
  | method | repr | setCache | close => exact absurd rfl hset
  | onRequestDone hook | onAppend hook =>
    cases hook with
    | none => exact absurd rfl hset
    | some q => exact ⟨_, rfl, rfl, KeptAlive.lost hw hl hp hnew⟩

/-- A clearing that the library refuses drops the reference all the same. -/
theorem clearing_dangles {r : Ret} (h : processStep F s (.start op) = some t) (hop : op.use = .onRequestDone none)
    (hr : r.rc < 0) (hv : ¬ (s.theirs (op.cls.kind, op.on.handle)).Vacant) :
    ∃ u, runs (processStep F) t [.go, .reply r, .go, .go] = some u ∧ u.observed = true ∧
      ¬ KeptAlive F u.mine u.theirs := by
  obtain ⟨hobs, rfl⟩ := Reentry.start_spec h
  obtain ⟨hl, p, hp⟩ := Registry.not_vacant hv
  obtain ⟨k, w, use, hw, hpub⟩ := op
  cases hop
  cases hpub
  have hkept : library.reply ⟨.clientSetRequestDone, w.handle, [.null, .null]⟩ r s.theirs = s.theirs := by
    have hsame (g : Registry) : g.reply ⟨.clientSetRequestDone, w.handle, [.null, .null]⟩ r = g := if_pos hr
    rw [library_reply (k := .client) _ rfl, hsame, Function.update_eq_self]
  refine ⟨_, rfl, hobs, ?_⟩
  show ¬ KeptAlive F _ (library.reply _ r s.theirs)
  rw [hkept]
  exact KeptAlive.lost hw hl hp (by simp)

end Nwep.Native
