/-
The library behind the wrapper classes: its kinds of handles, the functions called on them, and the
shape most wrapper methods share (the check that the object is open, the conversions of the
parameters, one call on the object's handle, and what is made of the result).

The Python objects are a heap of records indexed by object identity; a wrapper is the identity
together with the handle it keeps, also after the handle was freed.
-/
import Nwep.Boundary
import Nwep.Lib.Lifetime
import Mathlib.Logic.Function.Basic

namespace Nwep.Native

open Lib

/-! ## Handles and functions -/

/-- The kinds of native handles. -/
inductive Kind where
  | message | client | server | dht | log | logServer | cache | checkpoint | trustStore | anchorNode
deriving Repr, DecidableEq

/-- The functions the wrappers call with a handle; `dhtAttach`, `logServerCreate` and
`clientOpenStream` are called with the lender's. -/
inductive Fn where
  | messageGetStatus | messageGetHeader | messageHeaderAt | messageHeaderCount | messageGetBody | messageFree
  | clientSend | clientFd | clientTick | clientNextTimeoutMs | clientIsAlive | clientMetricsGet | clientCompression
  | clientPeerPubkey | clientSetCache | clientPollNotify | clientRequestSubmit | clientRequestPoll
  | clientRequestCancel | clientSetRequestDone | clientVerifyResponse | clientOpenStream | clientStreamResponse
  | clientStreamRecv | clientStreamVerify | clientStreamClose | clientConnectPoll | clientClose
  | serverLocalNodeid | serverLocalPort | serverFd | serverTick | serverNextTimeoutMs | serverRespond
  | serverRespondHeader | serverRelay | serverRespondBlit | serverStreamSend | serverStreamEnd | serverNotify
  | serverMetricsGet | serverLoad | serverSetOverloaded | serverConnCompression | serverLastHandshakeError
  | serverDrain | serverIsDrained | serverGetPeerNodeid | serverClose
  | dhtAttach | dhtBootstrap | dhtAnnounce | dhtStartLookup | dhtLookupResult | dhtTick | dhtNextTimeoutMs
  | dhtMetricsGet | dhtClose
  | logAppend | logSize | logRoot | logFree
  | logServerCreate | logServerSetOnAppend | logServerDispatch | logServerFree
  | cachePutSigned | cacheGetSigned | cacheStats | cacheClear | cacheFree
  | checkpointStaleness | checkpointFree
  | trustStoreLoadGenesisAnchors | trustStoreUpdateCheckpoint | checkpointVerify | trustStoreApplyAnchorChange
  | trustStoreObserveLogSize | trustStoreMaxLogSize | trustStoreSave | trustStoreLoad | trustStoreVerifyKey
  | trustStoreVerifyKeyBinding | trustStoreFree
  | anchorNodeCollectLogRoot | anchorNodeDispatch | anchorNodeProducePartialSig | anchorNodeFree
deriving Repr, DecidableEq

/-- The kind of the handle a function is called with. -/
def Fn.kind : Fn → Kind
  | messageGetStatus | messageGetHeader | messageHeaderAt | messageHeaderCount | messageGetBody | messageFree =>
    .message
  | clientSend | clientFd | clientTick | clientNextTimeoutMs | clientIsAlive | clientMetricsGet | clientCompression
  | clientPeerPubkey | clientSetCache | clientPollNotify | clientRequestSubmit | clientRequestPoll
  | clientRequestCancel | clientSetRequestDone | clientVerifyResponse | clientOpenStream | clientStreamResponse
  | clientStreamRecv | clientStreamVerify | clientStreamClose | clientConnectPoll | clientClose => .client
  | serverLocalNodeid | serverLocalPort | serverFd | serverTick | serverNextTimeoutMs | serverRespond
  | serverRespondHeader | serverRelay | serverRespondBlit | serverStreamSend | serverStreamEnd | serverNotify
  | serverMetricsGet | serverLoad | serverSetOverloaded | serverConnCompression | serverLastHandshakeError
  | serverDrain | serverIsDrained | serverGetPeerNodeid | serverClose | dhtAttach => .server
  | dhtBootstrap | dhtAnnounce | dhtStartLookup | dhtLookupResult | dhtTick | dhtNextTimeoutMs | dhtMetricsGet
  | dhtClose => .dht
  | logAppend | logSize | logRoot | logFree | logServerCreate => .log
  | logServerSetOnAppend | logServerDispatch | logServerFree => .logServer
  | cachePutSigned | cacheGetSigned | cacheStats | cacheClear | cacheFree => .cache
  | checkpointStaleness | checkpointFree => .checkpoint
  | trustStoreLoadGenesisAnchors | trustStoreUpdateCheckpoint | checkpointVerify | trustStoreApplyAnchorChange
  | trustStoreObserveLogSize | trustStoreMaxLogSize | trustStoreSave | trustStoreLoad | trustStoreVerifyKey
  | trustStoreVerifyKeyBinding | trustStoreFree => .trustStore
  | anchorNodeCollectLogRoot | anchorNodeDispatch | anchorNodeProducePartialSig | anchorNodeFree => .anchorNode

/-- The function that frees a handle of the kind. -/
def Kind.free : Kind → Fn
  | message => .messageFree
  | client => .clientClose
  | server => .serverClose
  | dht => .dhtClose
  | log => .logFree
  | logServer => .logServerFree
  | cache => .cacheFree
  | checkpoint => .checkpointFree
  | trustStore => .trustStoreFree
  | anchorNode => .anchorNodeFree

theorem Kind.free_kind (k : Kind) : k.free.kind = k := by cases k <;> rfl

/-- A converted parameter. -/
inductive Val where
  | int (n : Int)
  | bytes (b : Bytes)
  | null
  | ptr (p : Nat)
  | headers (h : Option (List (Bytes × Bytes)))
deriving Repr, DecidableEq

/-- A library call: the handle it is made with and the converted parameters, in the order of their
conversion. -/
structure Call where
  fn : Fn
  handle : Nat
  args : List Val
deriving Repr, DecidableEq

/-- The call is made with the handle `h` of kind `k`. -/
def Uses (k : Kind) (h : Nat) (c : Call × Ret) : Prop := c.1.fn.kind = k ∧ c.1.handle = h

/-- The call frees the handle: the function of its kind that does, or a poll of a handshake that
reports failure. -/
def Frees (k : Kind) (h : Nat) (c : Call × Ret) : Prop :=
  c.1.handle = h ∧ (c.1.fn = k.free ∨ (k = .client ∧ c.1.fn = .clientConnectPoll ∧ c.2.rc < 0))

instance (k : Kind) (h : Nat) : DecidablePred (Uses k h) := fun _ => inferInstanceAs (Decidable (_ ∧ _))

instance (k : Kind) (h : Nat) : DecidablePred (Frees k h) := fun _ => inferInstanceAs (Decidable (_ ∧ (_ ∨ _ ∧ _ ∧ _)))

theorem Frees.uses {k : Kind} {h : Nat} {c : Call × Ret} (hf : Frees k h c) : Uses k h c := by
  obtain ⟨hh, hfn | ⟨rfl, hfn, -⟩⟩ := hf
  · exact ⟨by rw [hfn, Kind.free_kind], hh⟩
  · exact ⟨by rw [hfn]; rfl, hh⟩

/-! ## Objects -/

/-- A wrapper object: `_closed` (of a `Connecting`, `_done`), the attached cache, the callback kept
for the library, and the header iterators handed out, each with its next index until it is
exhausted or has raised. -/
structure Obj where
  closed : Bool := false
  cache : Option Nat := none
  callback : Option Nat := none
  iters : List (Option Nat) := []

/-- A reference to a wrapper object, with its `_handle`. -/
structure Wrapper where
  id : Nat
  handle : Nat
deriving Repr, DecidableEq

abbrev Heap := World Call Ret (Nat → Obj)

abbrev Prog (ε α : Type) := Py ε Call (Nat → Obj) α

/-- What a method returns: the data the library gave. The last step to a Python object (enumeration
lookups, records of counters) is left out; `object` is a new wrapper of this handle. -/
inductive Value where
  | none
  | bool (b : Bool)
  | int (n : Int)
  | bytes (b : Bytes)
  | object (handle : Nat)
  | chunk (b : Bytes) (ended : Bool)
  | reply
deriving Repr, DecidableEq

variable {ε : Type}

def isClosed (w : Wrapper) (v : Heap) : Bool := (v.objs w.id).closed

def setObj (w : Wrapper) (f : Obj → Obj) : Prog ε Unit :=
  modify fun v => { v with objs := Function.update v.objs w.id (f (v.objs w.id)) }

/-- `_check_open` (of a `Connecting`, the test of `_done`). -/
def checkOpen (w : Wrapper) (message : String) : Prog ε Unit := do
  if isClosed w (← get) then throw (.valueError message)
  else return

/-- A call on the wrapper's handle. -/
def callOn (w : Wrapper) (fn : Fn) (args : List Val) : Prog ε Ret := call ⟨fn, w.handle, args⟩

/-! ## Parameters and results -/

/-- A converted parameter, or the exception its conversion raised. -/
abbrev Param (ε : Type) := Except (PyExc ε) Val

def param {α : Type} (f : α → Val) (a : Arg ε α) : Param ε := (a.mapError PyExc.raised).map f

def int (a : Arg ε Int) : Param ε := param .int a

def bytes (a : Arg ε Bytes) : Param ε := param .bytes a

def ptr (a : Arg ε Nat) : Param ε := param .ptr a

/-- An object of a fixed size, by a pointer to its bytes. -/
def fixed {n : Nat} (a : Arg ε (Fixed n)) : Param ε := bytes (a.map Fixed.bytes)

/-- `_expect`: a byte argument of exactly this length. -/
def expect (buf : Arg ε Bytes) (size : Nat) (name : String) : Except (PyExc ε) Unit := do
  let buf ← buf.mapError PyExc.raised
  if buf.length ≠ size then
    .error (.valueError (name ++ " must be " ++ toString size ++ " bytes, got " ++ toString buf.length))

/-- The result when `check` passes the code. -/
def checked (f : Ret → Value) (ret : Ret) : Except (PyExc ε) Value := do
  let _ ← checkCode ret.rc
  return f ret

/-- The result whatever the code. -/
def unchecked (f : Ret → Value) (ret : Ret) : Except (PyExc ε) Value := .ok (f ret)

def done (_ : Ret) : Value := .none
def code (ret : Ret) : Value := .int ret.rc
def data (ret : Ret) : Value := .bytes ret.data
def isOne (ret : Ret) : Value := .bool (ret.rc == 1)
def made (ret : Ret) : Value := .object ret.out
def outNumber (ret : Ret) : Value := .int ret.out
def chunk (ret : Ret) : Value := .chunk ret.data (ret.out == 1)

/-- A timeout: none below zero. -/
def timeout (ret : Ret) : Value := if ret.rc < 0 then .none else .int ret.rc

/-- A pointer: none for `NULL`. -/
def textOrNone (ret : Ret) : Value := if ret.rc = 0 then .none else .bytes ret.data

/-- `Compression(code) if code in (0, 1) else Compression.UNKNOWN`. -/
def compression (ret : Ret) : Value := if ret.rc = 0 ∨ ret.rc = 1 then .int ret.rc else .int (-1)

/-- A checked code that an enumeration with members `0 … n - 1` is made of. -/
def checkedEnum (name : String) (n : Nat) (ret : Ret) : Except (PyExc ε) Value := do
  let rc ← checkCode ret.rc
  if rc < n then return .int rc
  else .error (.valueError (toString rc ++ " is not a valid " ++ name))

/-! ## The common shape -/

/-- A method of the common shape: the message of its `_check_open`, if it makes that check, the
length checks and the conversions, the function, and what is made of its result. -/
structure Method (ε : Type) where
  guard : Option String := none
  checks : List (Except (PyExc ε) Unit) := []
  fn : Fn
  args : List (Param ε) := []
  result : Ret → Except (PyExc ε) Value

namespace Method

/-- The parameters of the call, or the first exception on the way to it. -/
def params (m : Method ε) : Except (PyExc ε) (List Val) := do
  m.checks.forM id
  m.args.mapM id

def entry (w : Wrapper) (m : Method ε) : Prog ε Unit :=
  match m.guard with
  | some message => checkOpen w message
  | none => pure ()

def run (w : Wrapper) (m : Method ε) : Prog ε Value := do
  m.entry w
  let vals ← raise m.params
  let ret ← callOn w m.fn vals
  raise (m.result ret)

end Method

end Nwep.Native
