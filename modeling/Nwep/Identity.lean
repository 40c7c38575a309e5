/-
Private keys in c-owned memory: `Identity`, `BlsKeypair`, and the functions that lend a key to the
library.

A keyring is the key memory that `ffi.new` handed out and the objects that keep a part of it; both are
named by their place in the list, and a place without an object reads as a closed one. A call that makes
a key writes the memory before its code is looked at.
-/
import Nwep.Native.Create

namespace Nwep.Identity

open Lib Native

def sigSize : Nat := 64
def pemCap : Nat := 4096
def entryCap : Nat := 512
def commitSize : Nat := 32

variable {ε : Type}

/-! ## The keyring -/

inductive Scheme where
  | ed25519 -- `nwep_keypair`
  | bls -- the secret of a `BlsKeypair`
deriving Repr, DecidableEq

/-- The public and the private half of a key. -/
structure Cell where
  pub : Bytes
  priv : Bytes
  size : priv.length = privkeySize

/-- A cell of `ffi.new`. -/
def Cell.zero : Cell := ⟨[], List.replicate privkeySize 0, List.length_replicate⟩

/-- What the library wrote: the halves of the key, one after the other. -/
def Cell.written (pubSize : Nat) (data : Bytes) : Cell :=
  ⟨buffer pubSize data, buffer privkeySize (data.drop pubSize), length_buffer ..⟩

/-- `nwep_zeroize` of the private half. -/
def Cell.wipe (c : Cell) : Cell := { c with priv := List.replicate privkeySize 0, size := List.length_replicate }

/-- An `Identity` or a `BlsKeypair`: the cell it keeps, its name (of a `BlsKeypair`, a copy of the public key),
and `_closed`. -/
structure KeyObj where
  scheme : Scheme
  cell : Nat
  name : Bytes
  closed : Bool

def KeyObj.shut (o : KeyObj) : KeyObj := { o with closed := true }

structure Keyring where
  cells : List Cell
  objs : List KeyObj

inductive KeyFn where
  | identityGenerate | keypairLoadPem | nodeidFromPubkey | keypairSavePem | ed25519Sign | zeroize
  | blsKeygen | blsSign | genesisCheckpointCreate
  | keybindingCreate | keyrotationCreate | revocationCreate | logServerCreate
  | make (fn : Make)
deriving Repr, DecidableEq

/-- What a call that makes a key leaves in the cell, whatever its code: the halves of the key, of a new identity
behind its node id. -/
def KeyFn.writes : KeyFn → Bytes → Option Cell
  | .identityGenerate, data => some (Cell.written pubkeySize (data.drop nodeidSize))
  | .keypairLoadPem, data => some (Cell.written pubkeySize data)
  | .blsKeygen, data => some ⟨[], buffer privkeySize data, length_buffer ..⟩
  | _, _ => none

/-- A call: the keys it is handed, by pointer or as a copy of the secret, and the other parameters. -/
structure KeyCall where
  fn : KeyFn
  keys : List Nat
  args : List Val
deriving Repr, DecidableEq

abbrev Ring := World KeyCall Ret Keyring

abbrev Prog (ε α : Type) := Py ε KeyCall Keyring α

/-- The object at a place. -/
def Keyring.obj (r : Keyring) (i : Nat) : KeyObj := (r.objs[i]?).getD ⟨.ed25519, 0, [], true⟩

/-- `ffi.new`. -/
def alloc : Prog ε Nat := fun w =>
  .ok w.objs.cells.length { w with objs := { w.objs with cells := w.objs.cells ++ [.zero] } }

def setCell (cell : Nat) (f : Cell → Cell) : Prog ε Unit :=
  modify fun w => { w with objs := { w.objs with cells := w.objs.cells.modify cell f } }

/-- A new wrapper of the cell. -/
def wrap (o : KeyObj) : Prog ε Nat := fun w =>
  .ok w.objs.objs.length { w with objs := { w.objs with objs := w.objs.objs ++ [o] } }

def closedMessage : Scheme → String
  | .ed25519 => "identity is closed (its private key was wiped)"
  | .bls => "bls keypair is closed (its secret was wiped)"

/-- The object behind `_check_open`. -/
def lend (i : Nat) : Prog ε KeyObj := do
  let o := (← get).objs.obj i
  if o.closed then throw (.valueError (closedMessage o.scheme)) else return o

/-- `close` of both classes, which context exit and the finalizer call as well. -/
def close (i : Nat) : Prog ε Unit := do
  let o := (← get).objs.obj i
  if o.closed then return
  else do
    let _ ← call ⟨.zeroize, [o.cell], [.int privkeySize]⟩
    setCell o.cell Cell.wipe
    modify fun w => { w with objs := { w.objs with objs := w.objs.objs.modify i KeyObj.shut } }

/-- A call that makes a key: the cell is written, then the code is checked. -/
def makeKey (fn : KeyFn) (cell : Nat) (args : List Val) : Prog ε Ret := do
  let ret ← call ⟨fn, [cell], args⟩
  setCell cell fun c => (fn.writes ret.data).getD c
  let _ ← check ret.rc
  return ret

/-! ## Identities -/

/-- `Identity.generate`. -/
def generate : Prog ε Nat := do
  let kp ← alloc
  let ret ← makeKey .identityGenerate kp []
  wrap ⟨.ed25519, kp, (NodeId.ofBuffer ret.data).bytes, false⟩

/-- A key that has no node id is wiped on the way out. -/
def wipeOut (kp : Nat) (e : PyExc ε) : Prog ε NodeId := do
  let _ ← call ⟨.zeroize, [kp], [.int privkeySize]⟩
  setCell kp Cell.wipe
  throw e

/-- The node id of a loaded key. -/
def nameOf (kp : Nat) : Prog ε NodeId := do
  let ret ← call ⟨.nodeidFromPubkey, [kp], []⟩
  tryCatch (do let _ ← check ret.rc; return NodeId.ofBuffer ret.data) (wipeOut kp)

/-- `Identity.from_pem`. -/
def fromPem (pem : Arg ε Bytes) : Prog ε Nat := do
  let kp ← alloc
  let raw ← arg pem
  let _ ← makeKey .keypairLoadPem kp [.bytes raw, .int raw.length]
  let nodeId ← nameOf kp
  wrap ⟨.ed25519, kp, nodeId.bytes, false⟩

/-- `Identity.to_pem`. -/
def toPem (i : Nat) : Prog ε Bytes := do
  let o ← lend i
  checkedCall ⟨.keypairSavePem, [o.cell], [.int pemCap]⟩ written

/-- `Identity.sign`. -/
def sign (i : Nat) (message : Arg ε Bytes) : Prog ε Bytes := do
  let o ← lend i
  let message ← arg message
  checkedCall ⟨.ed25519Sign, [o.cell], [.bytes message, .int message.length]⟩ fun ret => buffer sigSize ret.data

/-- `Identity.public_key`. -/
def publicKey (i : Nat) : Prog ε Bytes := do
  let o ← lend i
  return ((← get).objs.cells.getD o.cell .zero).pub

/-! ## Bls keypairs -/

/-- `BlsKeypair.generate`; the public key follows the secret. -/
def blsGenerate (trust : Bool) : Prog ε Nat := do
  raise (requireTrust trust)
  let sk ← alloc
  let ret ← makeKey .blsKeygen sk []
  wrap ⟨.bls, sk, buffer TrustStore.blsPubkeySize (ret.data.drop privkeySize), false⟩

/-- `BlsKeypair.sign`. -/
def blsSign (i : Nat) (message : Arg ε Bytes) : Prog ε Bytes := do
  let o ← lend i
  let message ← arg message
  checkedCall ⟨.blsSign, [o.cell], [.bytes message, .int message.length]⟩ fun ret =>
    buffer Trust.blsSignatureSize ret.data

/-- `BlsKeypair._secret_bytes`, with the cell it copies. -/
def secretBytes (i : Nat) : Prog ε (Nat × Bytes) := do
  let o ← lend i
  return (o.cell, ((← get).objs.cells.getD o.cell .zero).priv)

/-! ## The functions that lend a key

A builder without an identity raises where it would lend one. -/

/-- `_keypair` of each identity, the conversions of the other parameters, and the call. -/
def lendTo (fn : KeyFn) (identities : List (Arg ε Nat)) (params : List (Param ε)) : Prog ε Ret := do
  let keys ← identities.mapM fun identity => do
    let i ← arg identity
    return (← lend i).cell
  let vals ← raise (params.mapM id)
  call ⟨fn, keys, vals⟩

/-- `log._encode`. -/
def encodeEntry (fn : KeyFn) (identities : List (Arg ε Nat)) (params : List (Param ε)) : Prog ε Bytes := do
  let ret ← lendTo fn identities (params ++ [.ok (.int entryCap)])
  let _ ← check ret.rc
  return written ret

/-- `KeyBinding.create`. -/
def keyBinding (identity : Nat) (recoveryCommitment : Arg ε Bytes) (timestamp : Arg ε Int) : Prog ε Bytes := do
  raise (expect recoveryCommitment commitSize "recovery_commitment")
  encodeEntry .keybindingCreate [.ok identity] [Native.bytes recoveryCommitment, int timestamp]

/-- `KeyRotation.create`. -/
def keyRotation (nodeId : Arg ε Bytes) (oldIdentity newIdentity : Nat) (timestamp overlapExpiry : Arg ε Int) :
    Prog ε Bytes :=
  encodeEntry .keyrotationCreate [.ok oldIdentity, .ok newIdentity]
    [Native.bytes nodeId, int timestamp, int overlapExpiry]

/-- `Revocation.create`. -/
def revocation (nodeId revokedPubkey : Arg ε Bytes) (recoveryIdentity : Nat) (reason timestamp : Arg ε Int) :
    Prog ε Bytes := do
  raise (expect revokedPubkey pubkeySize "revoked_pubkey")
  encodeEntry .revocationCreate [.ok recoveryIdentity]
    [Native.bytes nodeId, Native.bytes revokedPubkey, int reason, int timestamp]

/-- `LogServer.__init__`. -/
def logServer (identity : Nat) (log : Arg ε Nat) : Prog ε Nat := do
  let ret ← lendTo .logServerCreate [.ok identity] [ptr log]
  if ret.rc = 0 then throw (.internalError "log server creation failed") else return ret.out

/-- `AnchorNode.__init__`. -/
def anchorNode (trust : Bool) (identity blsKeypair : Nat) (shareIndex collectionWindowMs : Arg ε Int) : Prog ε Nat := do
  raise (requireTrust trust)
  let kp ← lend identity
  let (sk, secret) ← secretBytes blsKeypair
  let pk := ((← get).objs.obj blsKeypair).name
  let vals ← raise ([int shareIndex, int collectionWindowMs].mapM id)
  let ret ← call ⟨.make .anchorNodeCreate, [kp.cell, sk], .bytes secret :: .bytes pk :: vals⟩
  if ret.rc = 0 then throw (.internalError "anchor node creation failed") else return ret.out

/-- `genesis_checkpoint`. -/
def genesisCheckpoint (trust : Bool) (founders : List Nat) (threshold : Arg ε Int) : Prog ε Bytes := do
  raise (requireTrust trust)
  if founders.isEmpty then throw (.valueError "the genesis ceremony needs at least one founder")
  else do
    let secrets ← founders.mapM secretBytes
    let ring := (← get).objs
    let indices ← raise (Trust.bytesOf ((List.range founders.length).map fun i => (i : Int) + 1))
    let threshold ← arg threshold
    checkedCall ⟨.genesisCheckpointCreate, secrets.map Prod.fst,
      [.bytes (secrets.map Prod.snd).flatten, .bytes (founders.map fun i => (ring.obj i).name).flatten, .bytes indices,
        .int founders.length, .int threshold, .int Trust.encodeCap]⟩ written

/-- The listen calls of `ServerBuilder.build` and the terminals of `ClientBuilder`: the identity is lent first. -/
def makeWith (fn : Make) (identity : Arg ε Nat) (params : List (Param ε)) : Prog ε Nat := do
  let ret ← lendTo (.make fn) [identity] params
  let _ ← check ret.rc
  return ret.out

/-- `ServerBuilder.build`, up to the server's handle; `b.identity` is the identity's place. -/
def listen (b : ServerBuilder ε) : Prog ε Nat :=
  match b.fd with
  | some fd =>
    match b.shardId with
    | some shardId => makeWith .serverListenFdSharded b.identity [int fd, int shardId]
    | none => makeWith .serverListenFd b.identity [int fd]
  | none => makeWith (if b.reusePort then .serverListenReuseport else .serverListen) b.identity [ptr b.bind]

section Client

variable (identity : Arg ε Nat) (targetNodeId : Arg ε Bytes) (address dht : Arg ε Nat) (fd lookupTimeoutMs : Arg ε Int)

def connect : Prog ε Nat := makeWith .clientConnect identity [Native.bytes targetNodeId, ptr address]

def connectFd : Prog ε Nat := makeWith .clientConnectFd identity [Native.bytes targetNodeId, ptr address, int fd]

def connectByNodeId : Prog ε Nat :=
  makeWith .clientConnectByNodeid identity [Native.bytes targetNodeId, ptr dht, int lookupTimeoutMs]

def startConnect : Prog ε Nat := makeWith .clientConnectAsync identity [Native.bytes targetNodeId, ptr address]

def startConnectFd : Prog ε Nat :=
  makeWith .clientConnectFdAsync identity [Native.bytes targetNodeId, ptr address, int fd]

end Client

/-! ## Operations -/

/-- An operation on keys. -/
inductive Op (ε : Type) where
  | generate
  | fromPem (pem : Arg ε Bytes)
  | blsGenerate (trust : Bool)
  | toPem (i : Nat)
  | sign (i : Nat) (message : Arg ε Bytes)
  | publicKey (i : Nat)
  | blsSign (i : Nat) (message : Arg ε Bytes)
  | keyBinding (identity : Nat) (recoveryCommitment : Arg ε Bytes) (timestamp : Arg ε Int)
  | keyRotation (nodeId : Arg ε Bytes) (oldIdentity newIdentity : Nat) (timestamp overlapExpiry : Arg ε Int)
  | revocation (nodeId revokedPubkey : Arg ε Bytes) (recoveryIdentity : Nat) (reason timestamp : Arg ε Int)
  | logServer (identity : Nat) (log : Arg ε Nat)
  | anchorNode (trust : Bool) (identity blsKeypair : Nat) (shareIndex collectionWindowMs : Arg ε Int)
  | genesisCheckpoint (trust : Bool) (founders : List Nat) (threshold : Arg ε Int)
  | listen (b : ServerBuilder ε)
  | connect (identity : Arg ε Nat) (targetNodeId : Arg ε Bytes) (address : Arg ε Nat)
  | connectFd (identity : Arg ε Nat) (targetNodeId : Arg ε Bytes) (address : Arg ε Nat) (fd : Arg ε Int)
  | connectByNodeId (identity : Arg ε Nat) (targetNodeId : Arg ε Bytes) (dht : Arg ε Nat) (lookupTimeoutMs : Arg ε Int)
  | startConnect (identity : Arg ε Nat) (targetNodeId : Arg ε Bytes) (address : Arg ε Nat)
  | startConnectFd (identity : Arg ε Nat) (targetNodeId : Arg ε Bytes) (address : Arg ε Nat) (fd : Arg ε Int)
  | close (i : Nat) -- or context exit, or the finalizer

/-- The ring after the operation, whether it returned or raised. -/
def Op.run : Op ε → Ring → Ring
  | generate => after (Identity.generate : Prog ε Nat)
  | fromPem pem => after (Identity.fromPem pem)
  | blsGenerate trust => after (Identity.blsGenerate trust : Prog ε Nat)
  | toPem i => after (Identity.toPem i : Prog ε Bytes)
  | sign i message => after (Identity.sign i message)
  | publicKey i => after (Identity.publicKey i : Prog ε Bytes)
  | blsSign i message => after (Identity.blsSign i message)
  | keyBinding identity recoveryCommitment timestamp =>
    after (Identity.keyBinding identity recoveryCommitment timestamp)
  | keyRotation nodeId oldIdentity newIdentity timestamp overlapExpiry =>
    after (Identity.keyRotation nodeId oldIdentity newIdentity timestamp overlapExpiry)
  | revocation nodeId revokedPubkey recoveryIdentity reason timestamp =>
    after (Identity.revocation nodeId revokedPubkey recoveryIdentity reason timestamp)
  | logServer identity log => after (Identity.logServer identity log)
  | anchorNode trust identity blsKeypair shareIndex collectionWindowMs =>
    after (Identity.anchorNode trust identity blsKeypair shareIndex collectionWindowMs)
  | genesisCheckpoint trust founders threshold => after (Identity.genesisCheckpoint trust founders threshold)
  | listen b => after (Identity.listen b)
  | connect identity targetNodeId address => after (Identity.connect identity targetNodeId address)
  | connectFd identity targetNodeId address fd => after (Identity.connectFd identity targetNodeId address fd)
  | connectByNodeId identity targetNodeId dht lookupTimeoutMs =>
    after (Identity.connectByNodeId identity targetNodeId dht lookupTimeoutMs)
  | startConnect identity targetNodeId address => after (Identity.startConnect identity targetNodeId address)
  | startConnectFd identity targetNodeId address fd => after (Identity.startConnectFd identity targetNodeId address fd)
  | close i => after (Identity.close i : Prog ε Unit)

end Nwep.Identity
