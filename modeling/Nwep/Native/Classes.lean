/-
The classes that own a native handle, method by method: Response, Client, Connecting, Server, Dht,
Log, LogServer, Cache, Checkpoint, TrustStore and AnchorNode.

Methods of the common shape are given by their guard, parameters, function and result; the others
are programs of their own. `Op` collects the public methods and properties of each class.
-/
import Nwep.Native.Library
import Nwep.Server.Responder

namespace Nwep.Native

open Lib

variable {ε : Type}

/-- A converted header argument, as `encode_headers` gives it. -/
def headersParam (a : Arg ε (Option (List (Bytes × Bytes)))) : Param ε := param .headers a

/-- A `Response` lent to another object's method: `_raw_message` raises when it is closed. -/
def lent (origin : Arg ε Server.Response) : Except (PyExc ε) Val := do
  let origin ← origin.mapError PyExc.raised
  if origin.closed then .error (.valueError Server.responseClosed)
  else return .ptr origin.msg

/-- `close`: the free function once, then `_closed`; the callback is dropped with the handle. -/
def closeWith (w : Wrapper) (k : Kind) : Prog ε Value := do
  if isClosed w (← get) then return .none
  else
    let _ ← callOn w k.free []
    setObj w fun o => { o with closed := true, callback := none }
    return .none

/-- `__repr__` of a class that shows a property: the closed text without a look at the handle. -/
def reprWith (w : Wrapper) (m : Method ε) : Prog ε Value := do
  if isClosed w (← get) then return .none
  else m.run w

/-- `on_request_done` and `on_append`: the kept callback is set before the library is told of it, and
dropped after. -/
def setCallback (w : Wrapper) (fn : Fn) (hook : Option Nat) : Prog ε Value := do
  match hook with
  | none =>
    let _ ← callOn w fn [.null, .null]
    setObj w fun o => { o with callback := none }
    return .none
  | some hook =>
    setObj w fun o => { o with callback := some hook }
    let _ ← callOn w fn [.ptr hook, .null]
    return .none

/-! ## Response -/

namespace Response

def guard : Option String := some Server.responseClosed

/-- No check here. -/
def status : Method ε := { fn := .messageGetStatus, result := unchecked textOrNone }

def header (name : Arg ε Bytes) : Method ε :=
  { guard := guard, fn := .messageGetHeader, args := [bytes name], result := unchecked textOrNone }

def headerCount : Method ε := { guard := guard, fn := .messageHeaderCount, result := unchecked code }

def body : Method ε := { guard := guard, fn := .messageGetBody, result := unchecked data }

/-- `headers`: hands out an iterator over the message. -/
def headers (w : Wrapper) : Prog ε Value := do
  checkOpen w Server.responseClosed
  setObj w fun o => { o with iters := o.iters ++ [some 0] }
  return .none

/-- One `next` on the `i`-th iterator handed out: the generator of `message.headers` calls the library
until it reports the end. A name or a value that does not decode raises out of the generator, which is over then. -/
def next (w : Wrapper) (i : Nat) (decode : Bytes → Arg ε Bytes) : Prog ε Value := do
  match ((← get).objs w.id).iters[i]? with
  | some (some index) =>
    let ret ← callOn w .messageHeaderAt [.int index]
    if ret.rc = 0 then
      match decode ret.data with
      | .ok pair =>
        setObj w fun o => { o with iters := o.iters.set i (some (index + 1)) }
        return .bytes pair
      | .error e =>
        setObj w fun o => { o with iters := o.iters.set i none }
        throw (.raised e)
    else
      setObj w fun o => { o with iters := o.iters.set i none }
      return .none
  | _ => return .none

end Response

/-! ## Client and Connecting -/

namespace Client

variable (method : Arg ε Int) (path body : Arg ε Bytes) (headers : Arg ε (Option (List (Bytes × Bytes))))
  (now request : Arg ε Int)

def send : Method ε :=
  { fn := .clientSend, args := [headersParam headers, int method, bytes path, bytes body], result := checked made }

def fileno : Method ε := { fn := .clientFd, result := unchecked code }

def tick : Method ε := { fn := .clientTick, args := [int now], result := checked done }

def nextTimeout : Method ε := { fn := .clientNextTimeoutMs, args := [int now], result := unchecked timeout }

def isAlive : Method ε := { fn := .clientIsAlive, result := unchecked isOne }

def metrics : Method ε := { fn := .clientMetricsGet, result := checked data }

def compression : Method ε := { fn := .clientCompression, result := unchecked Native.compression }

def peerPubkey : Method ε := { fn := .clientPeerPubkey, result := checked data }

/-- `set_cache`: the reference is replaced after the library took the cache. -/
def setCache (w : Wrapper) (cache : Option (Arg ε Nat)) : Prog ε Value := do
  let val ← raise (match cache with
    | some cache => ptr cache
    | none => .ok .null)
  let ret ← callOn w .clientSetCache [val]
  let _ ← check ret.rc
  setObj w fun o => { o with cache := match val with
    | .ptr p => some p
    | _ => none }
  return .none

/-- A pointer to a message, or `NULL`. -/
def pollNotify : Method ε :=
  { fn := .clientPollNotify, result := unchecked fun ret => if ret.rc = 0 then .none else .object ret.rc.toNat }

def submit : Method ε :=
  { fn := .clientRequestSubmit, args := [headersParam headers, int method, bytes path, bytes body],
    result := checked outNumber }

def wouldBlock : Int := -803

def pollRequest : Method ε :=
  { fn := .clientRequestPoll, args := [int request],
    result := fun ret => do
      if ret.rc = 0 then return made ret
      else if ret.rc = wouldBlock then return .none
      else
        let _ ← checkCode ret.rc
        return .none }

def cancelRequest : Method ε := { fn := .clientRequestCancel, args := [int request], result := unchecked done }

def onRequestDone (w : Wrapper) (hook : Option Nat) : Prog ε Value := setCallback w .clientSetRequestDone hook

def verifyResponse (response : Arg ε Server.Response) : Method ε :=
  { fn := .clientVerifyResponse, args := [lent response, bytes path, int now], result := checked done }

def openStream : Method ε :=
  { fn := .clientOpenStream, args := [headersParam headers, int method, bytes path], result := checked outNumber }

end Client

namespace Connecting

def fileno : Method ε := { fn := .clientFd, result := unchecked code }

def tick (now : Arg ε Int) : Method ε := { fn := .clientTick, args := [int now], result := checked done }

def alreadyCompleted : String := "this Connecting has already completed"

/-- `poll`: 1 hands the handle to a `Client`, below 0 the library has closed it. -/
def poll (w : Wrapper) : Prog ε Value := do
  checkOpen w alreadyCompleted
  let ret ← callOn w .clientConnectPoll []
  if ret.rc = 1 then
    setObj w fun o => { o with closed := true }
    return .object w.handle
  else if ret.rc = 0 then return .none
  else
    setObj w fun o => { o with closed := true }
    let _ ← check ret.rc
    return .none

end Connecting

/-! ## Stream

A `Stream` is the stream's object with the handle of its client, which only `close` asks whether it is
still open. -/

namespace Stream

variable (id : Int)

def guard : Option String := some "stream is closed"

def response : Method ε :=
  { guard := guard, fn := .clientStreamResponse, args := [.ok (.int id)], result := checked made }

def recv (size : Arg ε Int) : Method ε :=
  { guard := guard, fn := .clientStreamRecv, args := [int size, .ok (.int id)], result := checked chunk }

def pubkeySize : Nat := 32

def verify (pubkey : Arg ε Bytes) : Method ε :=
  { guard := guard, checks := [expect pubkey pubkeySize "pubkey"], fn := .clientStreamVerify,
    args := [.ok (.int id), bytes pubkey], result := checked done }

/-- `close`: nothing to release when the client is closed. -/
def close (w client : Wrapper) : Prog ε Value := do
  let v ← get
  if isClosed w v = false ∧ isClosed client v = false then
    let _ ← callOn w .clientStreamClose [.int id]
    setObj w fun o => { o with closed := true }
    return .none
  else
    setObj w fun o => { o with closed := true }
    return .none

end Stream

/-! ## Server -/

namespace Server

variable (conn stream now : Arg ε Int) (body : Arg ε Bytes)

def nodeId : Method ε := { fn := .serverLocalNodeid, result := checked data }

def localPort : Method ε := { fn := .serverLocalPort, result := unchecked code }

def fileno : Method ε := { fn := .serverFd, result := unchecked code }

def tick : Method ε := { fn := .serverTick, args := [int now], result := checked done }

def nextTimeout : Method ε := { fn := .serverNextTimeoutMs, args := [int now], result := unchecked timeout }

/-- The token of a `Status` comes from the library, which needs no handle for it. -/
def respond (token : Arg ε Bytes) : Method ε :=
  { fn := .serverRespond, args := [bytes token, int conn, int stream, bytes body], result := checked done }

def respondHeader (name value : Arg ε Bytes) : Method ε :=
  { fn := .serverRespondHeader, args := [bytes name, bytes value, int conn, int stream], result := checked done }

def relay (origin : Arg ε Server.Response) : Method ε :=
  { fn := .serverRelay, args := [lent origin, int conn, int stream], result := checked done }

def respondBlit (frame : Arg ε Bytes) : Method ε :=
  { fn := .serverRespondBlit, args := [int conn, int stream, bytes frame], result := checked done }

def streamSend : Method ε :=
  { fn := .serverStreamSend, args := [int conn, int stream, bytes body], result := checked code }

def streamEnd : Method ε := { fn := .serverStreamEnd, args := [int conn, int stream], result := checked done }

def notify (event : Arg ε Bytes) (headers : Arg ε (Option (List (Bytes × Bytes)))) : Method ε :=
  { fn := .serverNotify, args := [headersParam headers, bytes event, int conn, bytes body], result := checked done }

def metrics : Method ε := { fn := .serverMetricsGet, result := checked data }

def load : Method ε := { fn := .serverLoad, result := unchecked code }

def setOverloaded (on : Arg ε Bool) : Method ε :=
  { fn := .serverSetOverloaded, args := [param (fun on => .int (if on then 1 else 0)) on], result := unchecked done }

def connCompression : Method ε :=
  { fn := .serverConnCompression, args := [int conn], result := unchecked compression }

/-- None for 0, else the error of this code. -/
def lastHandshakeError : Method ε :=
  { fn := .serverLastHandshakeError, result := unchecked fun ret => if ret.rc = 0 then .none else .int ret.rc }

def drain : Method ε := { fn := .serverDrain, result := checked done }

def isDrained : Method ε := { fn := .serverIsDrained, result := unchecked isOne }

end Server

/-! ## Dht -/

namespace Dht

variable (target : Arg ε NodeId) (now : Arg ε Int)

/-- A contact: its node id and its address. -/
def bootstrapSize : Nat := nodeidSize + addressSize

/-- The `nwep_bootstrap_entry` of a `Bootstrap`. -/
abbrev Bootstrap := Fixed bootstrapSize

/-- `attach`, called with the server's handle. -/
def attach (bootstraps : Arg ε (List (Arg ε Bootstrap))) (initialSeq : Arg ε Int) : Method ε :=
  { checks := [do
      let entries ← bootstraps.mapError PyExc.raised
      if entries.isEmpty then .error (.configInvalid "dht attach needs at least one bootstrap contact")],
    fn := .dhtAttach,
    args := [bytes (do
        let entries ← bootstraps
        let array ← entries.mapM id
        return (array.map Fixed.bytes).flatten), param (fun entries => .int entries.length) bootstraps, int initialSeq],
    result := checked made }

def bootstrap : Method ε := { fn := .dhtBootstrap, args := [int now], result := checked done }

def announce (serviceAddr : Arg ε Address) : Method ε :=
  { fn := .dhtAnnounce, args := [fixed serviceAddr, int now], result := checked done }

def startLookup : Method ε := { fn := .dhtStartLookup, args := [fixed target, int now], result := checked done }

def notFound : Int := -601

/-- A record for 0, none for a miss; any other code raises, a positive one too. -/
def lookupResult : Method ε :=
  { fn := .dhtLookupResult, args := [fixed target],
    result := fun ret =>
      if ret.rc = 0 then .ok (data ret)
      else if ret.rc = notFound then .ok .none
      else .error (.nwep ret.rc) }

def tick : Method ε := { fn := .dhtTick, args := [int now], result := checked done }

def nextTimeout : Method ε := { fn := .dhtNextTimeoutMs, args := [int now], result := unchecked timeout }

def metrics : Method ε := { fn := .dhtMetricsGet, result := checked data }

end Dht

/-! ## Log and LogServer -/

namespace Log

def guard : Option String := some "log is closed"

def append (entry : Arg ε Bytes) : Method ε :=
  { guard := guard, fn := .logAppend, args := [bytes entry], result := checked code }

def size : Method ε := { guard := guard, fn := .logSize, result := unchecked code }

def root : Method ε := { guard := guard, fn := .logRoot, result := checked data }

end Log

/-- What a sub-router makes of the code: 0 claims the responder (`used` is its flag), 1 declines. -/
def routed (used : Bool) (ret : Ret) : Except (PyExc ε) Value :=
  if ret.rc = 0 then
    if used then .error (.runtimeError Server.answeredTwice) else .ok .reply
  else if ret.rc = 1 then .ok .none
  else do
    let _ ← checkCode ret.rc
    return .none

namespace LogServer

/-- The constructor, called with the log's handle. -/
def create (keypair : Arg ε Nat) : Method ε :=
  { fn := .logServerCreate, args := [ptr keypair],
    result := fun ret => if ret.rc = 0 then .error (.internalError "log server creation failed") else .ok (made ret) }

def onAppend (w : Wrapper) (hook : Option Nat) : Prog ε Value := setCallback w .logServerSetOnAppend hook

/-- No check here. -/
def dispatch (conn : Arg ε Int) (msg buf : Arg ε Nat) (now : Arg ε Int) (used : Bool) : Method ε :=
  { fn := .logServerDispatch, args := [int conn, ptr msg, ptr buf, int now], result := routed used }

end LogServer

/-! ## Cache -/

namespace Cache

variable (method path originPubkey : Arg ε Bytes) (now : Arg ε Int)

def guard : Option String := some "cache is closed"

def pubkeySize : Nat := 32

def putSigned (response : Arg ε Server.Response) : Method ε :=
  { guard := guard, checks := [expect originPubkey pubkeySize "origin_pubkey"], fn := .cachePutSigned,
    args := [bytes method, bytes path, lent response, bytes originPubkey, int now], result := checked done }

def notFound : Int := -601

def cryptoVerify : Int := -304

def getSigned : Method ε :=
  { guard := guard, checks := [expect originPubkey pubkeySize "origin_pubkey"], fn := .cacheGetSigned,
    args := [bytes method, bytes path, bytes originPubkey, int now],
    result := fun ret => do
      if ret.rc = 0 then return made ret
      else if ret.rc = notFound ∨ ret.rc = cryptoVerify then return .none
      else
        let _ ← checkCode ret.rc
        return .none }

def stats : Method ε := { guard := guard, fn := .cacheStats, result := unchecked data }

def clear : Method ε := { guard := guard, fn := .cacheClear, result := unchecked done }

end Cache

/-! ## Checkpoint -/

namespace Checkpoint

def staleness (now : Arg ε Int) : Method ε :=
  { guard := some "checkpoint is closed", fn := .checkpointStaleness, args := [int now],
    result := checkedEnum "CheckpointStatus" 3 }

end Checkpoint

/-! ## TrustStore -/

namespace TrustStore

variable (entry blob : Arg ε Bytes) (now : Arg ε Int)

def closedMessage : String := "trust store is closed"

def guard : Option String := some closedMessage

def blsPubkeySize : Nat := 48

def pubkeySize : Nat := 32

def commitmentSize : Nat := 32

/-- The anchor keys, each of the expected length, as one buffer. -/
def loadGenesisAnchors (pubkeys : List (Arg ε Bytes)) : Method ε :=
  { guard := guard, checks := pubkeys.map fun pk => expect pk blsPubkeySize "anchor pubkey",
    fn := .trustStoreLoadGenesisAnchors,
    args := [bytes ((pubkeys.mapM id).map List.flatten), .ok (.int pubkeys.length)], result := checked done }

def updateCheckpoint : Method ε :=
  { guard := guard, fn := .trustStoreUpdateCheckpoint, args := [bytes blob, int now],
    result := checkedEnum "CheckpointStatus" 3 }

def verifyCheckpoint : Method ε :=
  { guard := guard, fn := .checkpointVerify, args := [bytes blob, int now], result := checked done }

def applyAnchorChange (currentEpoch : Arg ε Int) : Method ε :=
  { guard := guard, fn := .trustStoreApplyAnchorChange, args := [bytes entry, int currentEpoch],
    result := checked done }

def observeLogSize (observed : Arg ε Int) : Method ε :=
  { guard := guard, fn := .trustStoreObserveLogSize, args := [int observed], result := checked done }

def maxLogSize : Method ε := { guard := guard, fn := .trustStoreMaxLogSize, result := unchecked code }

def load : Method ε := { guard := guard, fn := .trustStoreLoad, args := [bytes blob], result := checked done }

/-- `client` lends its raw handle; without a commitment the library gets `NULL`. -/
def verifyKey (client : Arg ε Nat) (nodeId : Arg ε NodeId) (recoveryCommitment : Option (Arg ε Bytes)) : Method ε :=
  { guard := guard,
    checks := (recoveryCommitment.map fun c => expect c commitmentSize "recovery_commitment").toList,
    fn := .trustStoreVerifyKey,
    args := [ptr client, fixed nodeId, match recoveryCommitment with
      | some c => bytes c
      | none => .ok .null, int now],
    result := checkedEnum "KeyStatus" 2 }

def verifyKeyBinding (nodeId : Arg ε NodeId) (expectedPubkey bundle : Arg ε Bytes) : Method ε :=
  { guard := guard, checks := [expect expectedPubkey pubkeySize "expected_pubkey"],
    fn := .trustStoreVerifyKeyBinding, args := [fixed nodeId, bytes expectedPubkey, bytes bundle, int now],
    result := checked done }

/-- `save`: `_two_call`, the length first, then the bytes. -/
def save (w : Wrapper) : Prog ε Value := do
  checkOpen w closedMessage
  let ret ← callOn w .trustStoreSave [.null, .int 0]
  let _ ← check ret.rc
  let ret' ← callOn w .trustStoreSave [.int ret.out]
  let _ ← check ret'.rc
  return .bytes (ret'.data.take ret'.out)

end TrustStore

/-! ## AnchorNode -/

namespace AnchorNode

def guard : Option String := some "anchor node is closed"

def rootSize : Nat := 32

def collectLogRoot (epoch : Arg ε Int) (serverRoot : Arg ε Bytes) (serverLogSize : Arg ε Int)
    (localRoot : Arg ε Bytes) :
    Method ε :=
  { guard := guard, checks := [expect serverRoot rootSize "server_root", expect localRoot rootSize "local_root"],
    fn := .anchorNodeCollectLogRoot, args := [int epoch, bytes serverRoot, int serverLogSize, bytes localRoot],
    result := checked done }

def producePartialSig (epoch : Arg ε Int) (merkleRoot : Arg ε Bytes) (logSize : Arg ε Int) : Method ε :=
  { guard := guard, checks := [expect merkleRoot rootSize "merkle_root"], fn := .anchorNodeProducePartialSig,
    args := [int epoch, bytes merkleRoot, int logSize], result := checked data }

/-- `dispatch`, without a check: the anchor ids, then the peer's node id from the server the request came
to, then the anchor's own call. -/
def dispatch (w : Wrapper) (server : Nat) (conn : Arg ε Int) (anchorIds : List (Arg ε NodeId)) (msg buf : Nat)
    (now : Arg ε Int) (used : Bool) : Prog ε Value := do
  let ids ← arg (anchorIds.mapM id)
  let conn ← raise (int conn)
  let peer ← call ⟨.serverGetPeerNodeid, server, [conn]⟩
  let _ ← check peer.rc
  let now ← raise (int now)
  let ret ← callOn w .anchorNodeDispatch
    [.bytes (NodeId.ofBuffer peer.data).bytes, .bytes (ids.map Fixed.bytes).flatten, .int anchorIds.length, .ptr msg,
      .ptr buf, now]
  raise (routed used ret)

end AnchorNode

/-! ## Public operations -/

inductive Cls where
  | response | client | connecting | server | dht | log | logServer | cache | checkpoint | trustStore | anchorNode
deriving Repr, DecidableEq

/-- The kind of the handle an object of the class owns. -/
def Cls.kind : Cls → Kind
  | response => .message
  | client | connecting => .client
  | server => .server
  | dht => .dht
  | log => .log
  | logServer => .logServer
  | cache => .cache
  | checkpoint => .checkpoint
  | trustStore => .trustStore
  | anchorNode => .anchorNode

/-- What a call of a public method or property runs. -/
inductive Body (ε : Type) where
  | method (m : Method ε)
  | repr (m : Method ε)
  | headers
  | next (i : Nat) (decode : Bytes → Arg ε Bytes)
  | setCache (cache : Option (Arg ε Nat))
  | onRequestDone (hook : Option Nat)
  | onAppend (hook : Option Nat)
  | poll
  | save
  | anchorDispatch (server : Nat) (conn : Arg ε Int) (anchorIds : List (Arg ε NodeId)) (msg buf : Nat) (now : Arg ε Int)
      (used : Bool)
  | close

def Body.run (k : Cls) (w : Wrapper) : Body ε → Prog ε Value
  | method m => m.run w
  | repr m => reprWith w m
  | headers => Response.headers w
  | next i decode => Response.next w i decode
  | setCache cache => Client.setCache w cache
  | onRequestDone hook => Client.onRequestDone w hook
  | onAppend hook => LogServer.onAppend w hook
  | poll => Connecting.poll w
  | save => TrustStore.save w
  | anchorDispatch server conn anchorIds msg buf now used =>
    AnchorNode.dispatch w server conn anchorIds msg buf now used
  | close => closeWith w k.kind

/-- The public methods and properties of each class; `raw` makes no call, and neither do the other
`__repr__`s. -/
inductive Public : Cls → Body ε → Prop
  | responseStatus : Public .response (.method Response.status)
  | responseHeader (name) : Public .response (.method (Response.header name))
  | responseHeaders : Public .response .headers
  | responseNext (i decode) : Public .response (.next i decode)
  | responseHeaderCount : Public .response (.method Response.headerCount)
  | responseBody : Public .response (.method Response.body)
  | responseRepr : Public .response (.repr Response.status)
  | clientSend (method path body headers) : Public .client (.method (Client.send method path body headers))
  | clientFileno : Public .client (.method Client.fileno)
  | clientTick (now) : Public .client (.method (Client.tick now))
  | clientNextTimeout (now) : Public .client (.method (Client.nextTimeout now))
  | clientIsAlive : Public .client (.method Client.isAlive)
  | clientMetrics : Public .client (.method Client.metrics)
  | clientCompression : Public .client (.method Client.compression)
  | clientPeerPubkey : Public .client (.method Client.peerPubkey)
  | clientSetCache (cache) : Public .client (.setCache cache)
  | clientPollNotify : Public .client (.method Client.pollNotify)
  | clientSubmit (method path body headers) : Public .client (.method (Client.submit method path body headers))
  | clientPollRequest (request) : Public .client (.method (Client.pollRequest request))
  | clientCancelRequest (request) : Public .client (.method (Client.cancelRequest request))
  | clientOnRequestDone (hook) : Public .client (.onRequestDone hook)
  | clientVerifyResponse (path now response) : Public .client (.method (Client.verifyResponse path now response))
  | clientOpenStream (method path headers) : Public .client (.method (Client.openStream method path headers))
  | clientRepr : Public .client (.repr Client.isAlive)
  | connectingFileno : Public .connecting (.method Connecting.fileno)
  | connectingTick (now) : Public .connecting (.method (Connecting.tick now))
  | connectingPoll : Public .connecting .poll
  | serverNodeId : Public .server (.method Server.nodeId)
  | serverLocalPort : Public .server (.method Server.localPort)
  | serverFileno : Public .server (.method Server.fileno)
  | serverTick (now) : Public .server (.method (Server.tick now))
  | serverNextTimeout (now) : Public .server (.method (Server.nextTimeout now))
  | serverRespond (conn stream body token) : Public .server (.method (Server.respond conn stream body token))
  | serverRespondHeader (conn stream name value) :
      Public .server (.method (Server.respondHeader conn stream name value))
  | serverRelay (conn stream origin) : Public .server (.method (Server.relay conn stream origin))
  | serverRespondBlit (conn stream frame) : Public .server (.method (Server.respondBlit conn stream frame))
  | serverStreamSend (conn stream body) : Public .server (.method (Server.streamSend conn stream body))
  | serverStreamEnd (conn stream) : Public .server (.method (Server.streamEnd conn stream))
  | serverNotify (conn body event headers) : Public .server (.method (Server.notify conn body event headers))
  | serverMetrics : Public .server (.method Server.metrics)
  | serverLoad : Public .server (.method Server.load)
  | serverSetOverloaded (on) : Public .server (.method (Server.setOverloaded on))
  | serverConnCompression (conn) : Public .server (.method (Server.connCompression conn))
  | serverLastHandshakeError : Public .server (.method Server.lastHandshakeError)
  | serverDrain : Public .server (.method Server.drain)
  | serverIsDrained : Public .server (.method Server.isDrained)
  | serverRepr : Public .server (.repr Server.localPort)
  | dhtBootstrap (now) : Public .dht (.method (Dht.bootstrap now))
  | dhtAnnounce (now serviceAddr) : Public .dht (.method (Dht.announce now serviceAddr))
  | dhtStartLookup (target now) : Public .dht (.method (Dht.startLookup target now))
  | dhtLookupResult (target) : Public .dht (.method (Dht.lookupResult target))
  | dhtTick (now) : Public .dht (.method (Dht.tick now))
  | dhtNextTimeout (now) : Public .dht (.method (Dht.nextTimeout now))
  | dhtMetrics : Public .dht (.method Dht.metrics)
  | logAppend (entry) : Public .log (.method (Log.append entry))
  | logSize : Public .log (.method Log.size)
  | logRoot : Public .log (.method Log.root)
  | logRepr : Public .log (.repr Log.size)
  | logServerOnAppend (hook) : Public .logServer (.onAppend hook)
  | logServerDispatch (conn msg buf now used) :
      Public .logServer (.method (LogServer.dispatch conn msg buf now used))
  | cachePutSigned (method path originPubkey now response) :
      Public .cache (.method (Cache.putSigned method path originPubkey now response))
  | cacheGetSigned (method path originPubkey now) :
      Public .cache (.method (Cache.getSigned method path originPubkey now))
  | cacheStats : Public .cache (.method Cache.stats)
  | cacheClear : Public .cache (.method Cache.clear)
  | checkpointStaleness (now) : Public .checkpoint (.method (Checkpoint.staleness now))
  | trustStoreLoadGenesisAnchors (pubkeys) : Public .trustStore (.method (TrustStore.loadGenesisAnchors pubkeys))
  | trustStoreUpdateCheckpoint (blob now) : Public .trustStore (.method (TrustStore.updateCheckpoint blob now))
  | trustStoreVerifyCheckpoint (blob now) : Public .trustStore (.method (TrustStore.verifyCheckpoint blob now))
  | trustStoreApplyAnchorChange (entry currentEpoch) :
      Public .trustStore (.method (TrustStore.applyAnchorChange entry currentEpoch))
  | trustStoreObserveLogSize (observed) : Public .trustStore (.method (TrustStore.observeLogSize observed))
  | trustStoreMaxLogSize : Public .trustStore (.method TrustStore.maxLogSize)
  | trustStoreSave : Public .trustStore .save
  | trustStoreLoad (blob) : Public .trustStore (.method (TrustStore.load blob))
  | trustStoreVerifyKey (now client nodeId recoveryCommitment) :
      Public .trustStore (.method (TrustStore.verifyKey now client nodeId recoveryCommitment))
  | trustStoreVerifyKeyBinding (now nodeId expectedPubkey bundle) :
      Public .trustStore (.method (TrustStore.verifyKeyBinding now nodeId expectedPubkey bundle))
  | trustStoreRepr : Public .trustStore (.repr TrustStore.maxLogSize)
  | anchorNodeCollectLogRoot (epoch serverRoot serverLogSize localRoot) :
      Public .anchorNode (.method (AnchorNode.collectLogRoot epoch serverRoot serverLogSize localRoot))
  | anchorNodeDispatch (server conn anchorIds msg buf now used) :
      Public .anchorNode (.anchorDispatch server conn anchorIds msg buf now used)
  | anchorNodeProducePartialSig (epoch merkleRoot logSize) :
      Public .anchorNode (.method (AnchorNode.producePartialSig epoch merkleRoot logSize))
  | close (k) : Public k .close

/-- A public operation of the class. -/
abbrev Op (ε : Type) (k : Cls) := { b : Body ε // Public k b }

end Nwep.Native
