/-
The constructors of the owning classes: the terminals of the builders, `Checkpoint.decode`, and the
`__init__`s that allocate. Each takes a new handle from the library, and `build` calls the library
again before it returns the object.

What outlives an exception is the object: from `self._handle = handle` on its finalizer frees the
handle.
-/
import Nwep.Native.Account
import Nwep.Trust.Packing

namespace Nwep.Native

open Lib

variable {ε : Type}

/-! ## Functions -/

/-- The functions the constructors call; the first argument of `serverSetMaxParked` and
`serverSetHandler` is the new server's handle. -/
inductive Make where
  | serverListen | serverListenReuseport | serverListenFd | serverListenFdSharded | serverSetMaxParked | serverSetHandler
  | clientConnect | clientConnectFd | clientConnectByNodeid | clientConnectAsync | clientConnectFdAsync
  | logCreate | cacheCreate | checkpointDecode | trustStoreCreate | anchorNodeCreate
deriving Repr, DecidableEq

structure MakeCall where
  fn : Make
  args : List Val
deriving Repr, DecidableEq

/-- A constructor, over the `_handle` of the object it builds. -/
abbrev Building (ε α : Type) := Py ε MakeCall (Option Nat) α

/-- The wrapper's `__init__` keeps the handle. -/
def hold (handle : Nat) : Building ε Nat := do
  modify fun v => { v with objs := some handle }
  return handle

/-- The library writes the handle through an out parameter. -/
def makeOut (fn : Make) (params : List (Param ε)) : Building ε Nat := do
  let vals ← raise (params.mapM id)
  let ret ← call ⟨fn, vals⟩
  let _ ← check ret.rc
  hold ret.out

/-- The library returns the handle, or `NULL`. -/
def makeOrNull (fn : Make) (params : List (Param ε)) (message : String) : Building ε Nat := do
  let vals ← raise (params.mapM id)
  let ret ← call ⟨fn, vals⟩
  if ret.rc = 0 then throw (.internalError message)
  else hold ret.out

/-! ## The builders -/

/-- `ServerBuilder`, as `build` finds it: the keypair its identity lends and the address to bind raise
when they are not set. -/
structure ServerBuilder (ε : Type) where
  identity : Arg ε Nat
  bind : Arg ε Nat
  handler : Option Nat := none
  maxParked : Option (Arg ε Int) := none
  reusePort : Bool := false
  fd : Option (Arg ε Int) := none
  shardId : Option (Arg ε Int) := none

namespace ServerBuilder

def listen (b : ServerBuilder ε) : Building ε Nat :=
  match b.fd with
  | some fd =>
    match b.shardId with
    | some shardId => makeOut .serverListenFdSharded [ptr b.identity, int fd, int shardId]
    | none => makeOut .serverListenFd [ptr b.identity, int fd]
  | none => makeOut (if b.reusePort then .serverListenReuseport else .serverListen) [ptr b.identity, ptr b.bind]

def setMaxParked (b : ServerBuilder ε) (server : Nat) : Building ε Unit :=
  match b.maxParked with
  | some limit => do
    let limit ← raise (int limit)
    let _ ← call ⟨.serverSetMaxParked, [.ptr server, limit]⟩
  | none => return

/-- `_install_handler`. -/
def installHandler (b : ServerBuilder ε) (server : Nat) : Building ε Unit :=
  match b.handler with
  | some handler => do
    let ret ← call ⟨.serverSetHandler, [.ptr server, .ptr handler, .null]⟩
    let _ ← check ret.rc
  | none => return

def build (b : ServerBuilder ε) : Building ε Nat := do
  let server ← b.listen
  b.setMaxParked server
  b.installHandler server
  return server

end ServerBuilder

namespace ClientBuilder

variable (identity : Arg ε Nat) (targetNodeId : Arg ε NodeId) (address : Arg ε Nat) (fd : Arg ε Int)

def connect : Building ε Nat := makeOut .clientConnect [ptr identity, fixed targetNodeId, ptr address]

def connectFd : Building ε Nat := makeOut .clientConnectFd [ptr identity, fixed targetNodeId, ptr address, int fd]

def connectByNodeId (dht : Arg ε Nat) (lookupTimeoutMs : Arg ε Int) : Building ε Nat :=
  makeOut .clientConnectByNodeid [ptr identity, fixed targetNodeId, ptr dht, int lookupTimeoutMs]

def startConnect : Building ε Nat := makeOut .clientConnectAsync [ptr identity, fixed targetNodeId, ptr address]

def startConnectFd : Building ε Nat :=
  makeOut .clientConnectFdAsync [ptr identity, fixed targetNodeId, ptr address, int fd]

end ClientBuilder

/-! ## The other constructors -/

/-- `_require_trust`, for a library with or without the trust layer. -/
def requireTrust (trust : Bool) : Except (PyExc ε) Unit :=
  match (Trust.requireTrust : Trust.Prog ε Unit) ⟨trust, fun _ => ⟨0, 0, []⟩, []⟩ with
  | .ok _ _ => .ok ()
  | .error e _ => .error e

def Log.init : Building ε Nat := makeOrNull .logCreate [] "log allocation failed"

def Cache.init (maxBytes maxEntries : Arg ε Int) : Building ε Nat :=
  makeOrNull .cacheCreate [int maxBytes, int maxEntries] "cache allocation failed"

def Checkpoint.decode (trust : Bool) (data : Arg ε Bytes) : Building ε Nat := do
  raise (requireTrust trust)
  makeOut .checkpointDecode [bytes data]

def TrustStore.init (trust : Bool) : Building ε Nat := do
  raise (requireTrust trust)
  makeOrNull .trustStoreCreate [] "trust store allocation failed"

/-- The `nwep_keypair` that an identity lends. -/
structure Keypair where
  pub : Fixed pubkeySize
  priv : Fixed privkeySize

def AnchorNode.init (trust : Bool) (keypair : Arg ε Keypair) (blsKeypair : Trust.BlsKeypair)
    (shareIndex collectionWindowMs : Arg ε Int) : Building ε Nat := do
  raise (requireTrust trust)
  makeOrNull .anchorNodeCreate
    [fixed (keypair.map Keypair.pub), fixed (keypair.map Keypair.priv), blsKeypair.secretBytes.map .bytes,
      .ok (.bytes blsKeypair.pk), int shareIndex, int collectionWindowMs] "anchor node creation failed"

/-- The constructors that need no other owner. -/
inductive Ctor (ε : Type) where
  | build (b : ServerBuilder ε)
  | connect (identity : Arg ε Nat) (targetNodeId : Arg ε NodeId) (address : Arg ε Nat)
  | connectFd (identity : Arg ε Nat) (targetNodeId : Arg ε NodeId) (address : Arg ε Nat) (fd : Arg ε Int)
  | connectByNodeId (identity : Arg ε Nat) (targetNodeId : Arg ε NodeId) (dht : Arg ε Nat) (lookupTimeoutMs : Arg ε Int)
  | startConnect (identity : Arg ε Nat) (targetNodeId : Arg ε NodeId) (address : Arg ε Nat)
  | startConnectFd (identity : Arg ε Nat) (targetNodeId : Arg ε NodeId) (address : Arg ε Nat) (fd : Arg ε Int)
  | log
  | cache (maxBytes maxEntries : Arg ε Int)
  | checkpoint (trust : Bool) (data : Arg ε Bytes)
  | trustStore (trust : Bool)
  | anchorNode (trust : Bool) (keypair : Arg ε Keypair) (blsKeypair : Trust.BlsKeypair)
      (shareIndex collectionWindowMs : Arg ε Int)

namespace Ctor

def cls : Ctor ε → Cls
  | build _ => .server
  | connect .. | connectFd .. | connectByNodeId .. => .client
  | startConnect .. | startConnectFd .. => .connecting
  | log => .log
  | cache .. => .cache
  | checkpoint .. => .checkpoint
  | trustStore _ => .trustStore
  | anchorNode .. => .anchorNode

/-- `__init__` calls the library itself: an exception leaves an object without a `_handle`. -/
def inInit : Ctor ε → Bool
  | log | cache .. | trustStore _ | anchorNode .. => true
  | _ => false

def run : Ctor ε → Building ε Nat
  | build b => b.build
  | connect identity targetNodeId address => ClientBuilder.connect identity targetNodeId address
  | connectFd identity targetNodeId address fd => ClientBuilder.connectFd identity targetNodeId address fd
  | connectByNodeId identity targetNodeId dht lookupTimeoutMs =>
    ClientBuilder.connectByNodeId identity targetNodeId dht lookupTimeoutMs
  | startConnect identity targetNodeId address => ClientBuilder.startConnect identity targetNodeId address
  | startConnectFd identity targetNodeId address fd => ClientBuilder.startConnectFd identity targetNodeId address fd
  | log => Log.init
  | cache maxBytes maxEntries => Cache.init maxBytes maxEntries
  | checkpoint trust data => Checkpoint.decode trust data
  | trustStore trust => TrustStore.init trust
  | anchorNode trust keypair blsKeypair shareIndex collectionWindowMs =>
    AnchorNode.init trust keypair blsKeypair shareIndex collectionWindowMs

end Ctor

/-! ## What they are handed -/

/-- What a constructor's call hands out. -/
def Make.hands (fn : Make) (ret : Ret) : Option (Kind × Nat) :=
  match fn with
  | serverListen | serverListenReuseport | serverListenFd | serverListenFdSharded =>
    if 0 ≤ ret.rc then some (.server, ret.out) else none
  | clientConnect | clientConnectFd | clientConnectByNodeid | clientConnectAsync | clientConnectFdAsync =>
    if 0 ≤ ret.rc then some (.client, ret.out) else none
  | checkpointDecode => if 0 ≤ ret.rc then some (.checkpoint, ret.out) else none
  | logCreate => if ret.rc = 0 then none else some (.log, ret.out)
  | cacheCreate => if ret.rc = 0 then none else some (.cache, ret.out)
  | trustStoreCreate => if ret.rc = 0 then none else some (.trustStore, ret.out)
  | anchorNodeCreate => if ret.rc = 0 then none else some (.anchorNode, ret.out)
  | serverSetMaxParked | serverSetHandler => none

def Makes (y : Pointer) (c : MakeCall × Ret) : Prop := c.1.fn.hands c.2 = some (y.kind, y.addr)

instance (y : Pointer) : DecidablePred (Makes y) := fun _ => inferInstanceAs (Decidable (_ = _))

abbrev Workshop := World MakeCall Ret (Option Nat)

def issued (v : Workshop) (y : Pointer) : Nat := v.log.countP (Makes y)

/-- What the constructor was handed, the object holds. -/
def Built (k : Kind) (v v' : Workshop) : Prop := ∀ y, issued v' y = issued v y + gives k v'.objs y

/-- Nothing more is handed out, and the object keeps its handle. -/
structure Settled (v v' : Workshop) : Prop where
  objs : v'.objs = v.objs
  issued : ∀ y, issued v' y = issued v y

instance : Std.Refl Settled where
  refl _ := ⟨rfl, fun _ => rfl⟩

instance : IsTrans Workshop Settled where
  trans _ _ _ h h' := ⟨h'.objs.trans h.objs, fun y => (h'.issued y).trans (h.issued y)⟩

section
variable {k : Kind} {fn : Make} {params : List (Param ε)} {v v' v'' : Workshop}

theorem Built.settled (h : Built k v v') (hs : Settled v' v'') : Built k v v'' := by
  intro y
  rw [hs.issued, hs.objs]
  exact h y

theorem issued_called (c : MakeCall) (v : Workshop) (y : Pointer) :
    issued (v.called c) y = issued v y + tally (Makes y (c, v.ret v.log.length)) := by
  unfold issued
  rw [World.called_log, countP_concat]

theorem issued_called_none {c : MakeCall} (hh : c.fn.hands (v.ret v.log.length) = none) (y : Pointer) :
    issued (v.called c) y = issued v y := by
  have hn : ¬ Makes y (c, v.ret v.log.length) := by
    unfold Makes
    rw [hh]; rintro ⟨⟩
  rw [issued_called, tally_false hn, Nat.add_zero]

/-- Nothing handed out, and no object. -/
theorem built_refl (h : v.objs = none) : Built k v v := by
  intro y
  rw [h, gives_none, Nat.add_zero]

theorem built_none {c : MakeCall} (h : v.objs = none) (hh : c.fn.hands (v.ret v.log.length) = none) :
    Built k v (v.called c) :=
  (built_refl h).settled ⟨rfl, issued_called_none hh⟩

/-- The object holds what the call handed out. -/
theorem built_some {c : MakeCall} {a : Nat} (hh : c.fn.hands (v.ret v.log.length) = some (k, a)) :
    Built k v { v.called c with objs := some a } := by
  intro y
  show issued (v.called c) y = _
  rw [issued_called]
  refine congrArg _ (tally_congr ?_)
  unfold Makes
  rw [hh]
  exact ⟨fun he => by cases he; exact ⟨rfl, rfl⟩, fun ⟨hk, ha⟩ => by cases ha; rw [hk]⟩

theorem makeOut_built (h : v.objs = none) (hfn : ∀ ret, fn.hands ret = if 0 ≤ ret.rc then some (k, ret.out) else none) :
    Built k v (after (makeOut fn params) v) := by
  unfold makeOut
  cases hp : (params.mapM id : Except (PyExc ε) (List Val)) with
  | error e =>
    rw [after_bind_error (raise_error e v)]
    exact built_refl h
  | ok vals =>
    rw [after_bind_ok (raise_ok vals v), after_bind_ok (call_ok _ _)]
    rcases check_cases (ε := ε) (v.ret v.log.length).rc (v.called ⟨fn, vals⟩) with ⟨hn, hc⟩ | ⟨hn, hc⟩
    · rw [after_bind_ok hc]
      exact built_some ((hfn _).trans (if_pos hn))
    · rw [after_bind_error hc]
      exact built_none h ((hfn _).trans (if_neg (by omega)))

theorem makeOrNull_built {message : String} (h : v.objs = none)
    (hfn : ∀ ret, fn.hands ret = if ret.rc = 0 then none else some (k, ret.out)) :
    Built k v (after (makeOrNull fn params message) v) := by
  unfold makeOrNull
  cases hp : (params.mapM id : Except (PyExc ε) (List Val)) with
  | error e =>
    rw [after_bind_error (raise_error e v)]
    exact built_refl h
  | ok vals =>
    rw [after_bind_ok (raise_ok vals v), after_bind_ok (call_ok _ _)]
    by_cases h0 : (v.ret v.log.length).rc = 0
    · rw [if_pos h0]
      exact built_none h ((hfn _).trans (if_pos h0))
    · rw [if_neg h0]
      exact built_some ((hfn _).trans (if_neg h0))

theorem trusted_built {trust : Bool} {x : Building ε Nat} (h : v.objs = none) (hx : Built k v (after x v)) :
    Built k v (after (do raise (requireTrust trust); x) v) := by
  cases ht : (requireTrust trust : Except (PyExc ε) Unit) with
  | error e =>
    rw [after_bind_error (raise_error e v)]
    exact built_refl h
  | ok u => rw [after_bind_ok (raise_ok u v)]; exact hx

theorem along_setup {c : MakeCall} (hh : ∀ ret, c.fn.hands ret = none) : Along Settled (call c : Building ε Ret) :=
  fun v => ⟨rfl, issued_called_none (hh (v.ret v.log.length))⟩

theorem ServerBuilder.listen_built (b : ServerBuilder ε) (h : v.objs = none) : Built .server v (after b.listen v) := by
  unfold ServerBuilder.listen
  split
  · split
    · exact makeOut_built h fun _ => rfl
    · exact makeOut_built h fun _ => rfl
  · refine makeOut_built h fun ret => ?_
    split <;> rfl

/-- `build` holds the server from the listen call on, however it ends. -/
theorem ServerBuilder.build_built (b : ServerBuilder ε) (h : v.objs = none) : Built .server v (after b.build v) := by
  refine (b.listen_built h).settled (Along.after_bind (fun server => ?_) v)
  refine Along.bind ?_ fun _ => Along.bind ?_ fun _ => Along.pure _
  · unfold ServerBuilder.setMaxParked
    split
    · exact (along_raise _).bind fun _ => (along_setup fun _ => rfl).bind fun _ => Along.pure _
    · exact Along.pure _
  · unfold ServerBuilder.installHandler
    split
    · exact (along_setup fun _ => rfl).bind fun _ => (along_check _).bind fun _ => Along.pure _
    · exact Along.pure _

/-- The spec of every constructor. -/
theorem Ctor.built (c : Ctor ε) (h : v.objs = none) : Built c.cls.kind v (after c.run v) := by
  cases c with
  | build b => exact b.build_built h
  | connect | connectFd | connectByNodeId | startConnect | startConnectFd => exact makeOut_built h fun _ => rfl
  | log => exact makeOrNull_built h fun _ => rfl
  | cache => exact makeOrNull_built h fun _ => rfl
  | checkpoint => exact trusted_built h (makeOut_built h fun _ => rfl)
  | trustStore => exact trusted_built h (makeOrNull_built h fun _ => rfl)
  | anchorNode => exact trusted_built h (makeOrNull_built h fun _ => rfl)

end

end Nwep.Native
