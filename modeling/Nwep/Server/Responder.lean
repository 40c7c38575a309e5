/-
`Responder`: the terminals a handler answers with, and the sub-router terminals `LogServer.dispatch`
and `AnchorNode.dispatch` that answer through a responder handed to them.

Every terminal is a program over the `_used` flags of the responders; the library calls it makes
carry the responder's buffer, or its (server, connection, stream).
-/
import Nwep.Boundary
import Mathlib.Logic.Function.Basic

namespace Nwep.Server

open Lib

/-! ## Objects and library calls -/

/-- `Responder`, its `_used` flag aside; `id` is the Python object. -/
structure Responder where
  id : Nat
  buf : Nat
  server : Nat
  conn : Nat
  streamId : Nat
deriving Repr, DecidableEq

/-- The parts of a `Request` the sub-routers read. -/
structure Request where
  msg : Nat
  server : Nat
  conn : Nat
deriving Repr, DecidableEq

/-- A `client.Response` lent to `relay`. -/
structure Response where
  msg : Nat
  closed : Bool
deriving Repr, DecidableEq

/-- What a terminal returns: the proof that it answered. -/
structure Reply where
  deferred : Bool := false
deriving Repr, DecidableEq

structure LogServer where
  handle : Nat
deriving Repr, DecidableEq

structure AnchorNode where
  handle : Nat
deriving Repr, DecidableEq

/-- The library calls of the terminals. -/
inductive Call where
  | statusStr (code : Nat)
  | responseHeader (buf : Nat) (name value : Bytes)
  | responseOk (buf : Nat) (body : Bytes)
  | responseStatus (buf : Nat) (token body : Bytes)
  | responseNotModified (buf : Nat) (etag : Bytes)
  | responsePartial (buf : Nat) (body : Bytes) (ranges : List (Nat × Nat)) (contentType : Bytes)
  | responseRangeNotSatisfiable (buf total : Nat)
  | responseRelay (buf origin : Nat)
  | responseBlit (buf : Nat) (frame : Bytes)
  | responseCapture (buf : Nat) (room : Option Nat)
  | serverBeginStream (server conn stream : Nat) (path token : Bytes) (headers : Option (List (Bytes × Bytes)))
  | serverGetPeerNodeid (server conn : Nat)
  | logServerDispatch (handle conn msg buf now : Nat)
  | anchorNodeDispatch (handle : Nat) (peer ids : Bytes) (count msg buf now : Nat)
deriving Repr, DecidableEq

/-- The call takes the responder's buffer, or its (server, connection, stream). -/
def Call.takes (r : Responder) : Call → Bool
  | statusStr _ => false
  | responseHeader buf .. | responseOk buf .. | responseStatus buf .. | responseNotModified buf ..
  | responsePartial buf .. | responseRangeNotSatisfiable buf .. | responseRelay buf .. | responseBlit buf ..
  | responseCapture buf .. => buf == r.buf
  | serverBeginStream server conn stream .. => server == r.server && conn == r.conn && stream == r.streamId
  | serverGetPeerNodeid .. => false
  | logServerDispatch _ _ _ buf _ => buf == r.buf
  | anchorNodeDispatch _ _ _ _ _ buf _ => buf == r.buf

/-- The call acts on a log or an anchor. -/
def Call.routes : Call → Bool
  | logServerDispatch .. | anchorNodeDispatch .. => true
  | _ => false

/-- The responders' `_used` flags. -/
structure Flags where
  used : Nat → Bool

abbrev Prog (ε α : Type) := Py ε Call Flags α

section Terminals

variable {ε : Type}

/-! ## The claim -/

def answeredTwice : String := "the request was already answered (responder used twice)"

/-- `_claim`. -/
def Responder.claim (r : Responder) : Prog ε Unit := do
  if (← get).objs.used r.id then throw (.runtimeError answeredTwice)
  else modify fun w => { w with objs := { used := Function.update w.objs.used r.id true } }

/-- A library call whose code `check` raises on. -/
def checked (c : Call) : Prog ε Ret := do
  let ret ← call c
  let _ ← check ret.rc
  return ret

/-! ## Status tokens -/

/-- The `status` parameter: a `Status` member or its raw token string. -/
inductive StatusArg (ε : Type) where
  | member (s : Status)
  | text (token : Arg ε Bytes)

/-- `wire._status_token`. -/
def statusToken (code : Nat) : Prog ε Bytes := do
  let ret ← call (.statusStr code)
  return if ret.rc = 0 then utf8 ("status-" ++ toString code) else ret.data

/-- `str(status).encode("utf-8")`. -/
def StatusArg.encode : StatusArg ε → Prog ε Bytes
  | member s => statusToken s.code
  | text token => arg token

/-! ## Terminals -/

namespace Responder

variable (r : Responder)

def header (name value : Arg ε Bytes) : Prog ε Unit := do
  let name ← arg name
  let value ← arg value
  let _ ← checked (.responseHeader r.buf name value)

def ok (body : Arg ε Bytes) : Prog ε Reply := do
  r.claim
  let body ← arg body
  let _ ← checked (.responseOk r.buf body)
  return {}

def status (status : StatusArg ε) (body : Arg ε Bytes) : Prog ε Reply := do
  r.claim
  let token ← status.encode
  let body ← arg body
  let _ ← checked (.responseStatus r.buf token body)
  return {}

/-- `b""`, the body where a caller gives none. -/
def noBody : Arg ε Bytes := .ok []

def created (body : Arg ε Bytes) : Prog ε Reply := r.status (.member .created) body
def accepted (body : Arg ε Bytes) : Prog ε Reply := r.status (.member .accepted) body
def noContent : Prog ε Reply := r.status (.member .noContent) noBody

def moved (location : Arg ε Bytes) : Prog ε Reply := do
  r.header (.ok (utf8 "location")) location
  r.status (.member .moved) noBody

def badRequest (body : Arg ε Bytes) : Prog ε Reply := r.status (.member .badRequest) body
def unauthorized (body : Arg ε Bytes) : Prog ε Reply := r.status (.member .unauthorized) body
def forbidden (body : Arg ε Bytes) : Prog ε Reply := r.status (.member .forbidden) body
def notFound (body : Arg ε Bytes) : Prog ε Reply := r.status (.member .notFound) body
def notAllowed : Prog ε Reply := r.status (.member .notAllowed) noBody
def conflict (body : Arg ε Bytes) : Prog ε Reply := r.status (.member .conflict) body
def gone : Prog ε Reply := r.status (.member .gone) noBody
def tooLarge : Prog ε Reply := r.status (.member .tooLarge) noBody
def preconditionFailed : Prog ε Reply := r.status (.member .preconditionFailed) noBody

def rateLimited (retryAfter : Arg ε Bytes) : Prog ε Reply := do
  r.header (.ok (utf8 "retry-after")) retryAfter
  r.status (.member .rateLimited) noBody

def error (body : Arg ε Bytes) : Prog ε Reply := r.status (.member .error) body
def unavailable : Prog ε Reply := r.status (.member .unavailable) noBody
def timeout : Prog ε Reply := r.status (.member .timeout) noBody
def notImplemented : Prog ε Reply := r.status (.member .notImplemented) noBody

def notModified (etag : Arg ε Bytes) : Prog ε Reply := do
  r.claim
  let etag ← arg etag
  let _ ← checked (.responseNotModified r.buf etag)
  return {}

def noRanges : String := "partial needs at least one range; use ok() for the full body"

/-- `partial`: the ranges are looked at before the claim. -/
def partialContent (body : Arg ε Bytes) (ranges : List (Arg ε (Nat × Nat))) (contentType : Arg ε Bytes) :
    Prog ε Reply := do
  if ranges.isEmpty then throw (.valueError noRanges)
  r.claim
  let arr ← ranges.mapM arg
  let body ← arg body
  let contentType ← arg contentType
  let _ ← checked (.responsePartial r.buf body arr contentType)
  return {}

def rangeNotSatisfiable (totalLen : Arg ε Nat) : Prog ε Reply := do
  r.claim
  let total ← arg totalLen
  let _ ← checked (.responseRangeNotSatisfiable r.buf total)
  return {}

end Responder

def responseClosed : String := "response is closed (its message was freed)"

/-- `Response._raw_message`. -/
def Response.rawMessage (origin : Response) : Prog ε Nat := do
  if origin.closed then throw (.valueError responseClosed)
  return origin.msg

namespace Responder

variable (r : Responder)

def relay (origin : Arg ε Response) : Prog ε Reply := do
  r.claim
  let origin ← arg origin
  let msg ← origin.rawMessage
  let _ ← checked (.responseRelay r.buf msg)
  return {}

def blit (frame : Arg ε Bytes) : Prog ε Reply := do
  r.claim
  let frame ← arg frame
  let _ ← checked (.responseBlit r.buf frame)
  return {}

def defer : Prog ε Reply := do
  r.claim
  return { deferred := true }

def stream (path : Arg ε Bytes) (status : StatusArg ε) (headers : HeadersArg ε) : Prog ε Reply := do
  r.claim
  let headers ← encodeHeaders headers
  let path ← arg path
  let token ← status.encode
  let _ ← checked (.serverBeginStream r.server r.conn r.streamId path token headers)
  return {}

def nothingBuilt : String := "capture() needs a response built first (call ok/relay/... before it)"

/-- `capture`: the frame's length first, then the frame into a buffer of that length. -/
def capture : Prog ε Bytes := do
  unless (← get).objs.used r.id do throw (.runtimeError nothingBuilt)
  let size := (← checked (.responseCapture r.buf none)).out
  let frame ← checked (.responseCapture r.buf (some size))
  return frame.data.take frame.out

end Responder

/-! ## Sub-router terminals -/

/-- What both sub-routers do with the library's code: 0 is a request answered into the buffer, 1 is
not their route. -/
def routed (r : Responder) (rc : Int) : Prog ε (Option Reply) := do
  if rc = 0 then
    r.claim
    return some {}
  if rc = 1 then return none
  let _ ← check rc
  return none

def LogServer.dispatch (l : LogServer) (request : Request) (r : Responder) (nowSecs : Arg ε Nat) :
    Prog ε (Option Reply) := do
  let now ← arg nowSecs
  let ret ← call (.logServerDispatch l.handle request.conn request.msg r.buf now)
  routed r ret.rc

/-- `Request.peer_node_id`. -/
def Request.peerNodeId (request : Request) : Prog ε Bytes := do
  let ret ← checked (.serverGetPeerNodeid request.server request.conn)
  return ret.data

def AnchorNode.dispatch (a : AnchorNode) (request : Request) (r : Responder) (anchorIds : List (Arg ε Bytes))
    (nowSecs : Arg ε Nat) : Prog ε (Option Reply) := do
  let ids ← anchorIds.mapM arg
  let peer ← request.peerNodeId
  let now ← arg nowSecs
  let ret ← call (.anchorNodeDispatch a.handle peer ids.flatten anchorIds.length request.msg r.buf now)
  routed r ret.rc

/-! ## Operations of a handler on its responder -/

/-- A terminal with its parameters. -/
inductive Terminal (ε : Type) where
  | ok (body : Arg ε Bytes)
  | status (status : StatusArg ε) (body : Arg ε Bytes)
  | created (body : Arg ε Bytes)
  | accepted (body : Arg ε Bytes)
  | noContent
  | moved (location : Arg ε Bytes)
  | badRequest (body : Arg ε Bytes)
  | unauthorized (body : Arg ε Bytes)
  | forbidden (body : Arg ε Bytes)
  | notFound (body : Arg ε Bytes)
  | notAllowed
  | conflict (body : Arg ε Bytes)
  | gone
  | tooLarge
  | preconditionFailed
  | rateLimited (retryAfter : Arg ε Bytes)
  | error (body : Arg ε Bytes)
  | unavailable
  | timeout
  | notImplemented
  | notModified (etag : Arg ε Bytes)
  | partialContent (body : Arg ε Bytes) (ranges : List (Arg ε (Nat × Nat))) (contentType : Arg ε Bytes)
  | rangeNotSatisfiable (totalLen : Arg ε Nat)
  | relay (origin : Arg ε Response)
  | blit (frame : Arg ε Bytes)
  | defer
  | stream (path : Arg ε Bytes) (status : StatusArg ε) (headers : HeadersArg ε)
  | logDispatch (l : LogServer) (request : Request) (nowSecs : Arg ε Nat)
  | anchorDispatch (a : AnchorNode) (request : Request) (anchorIds : List (Arg ε Bytes)) (nowSecs : Arg ε Nat)

/-- Call the terminal: `none` is a sub-router that declined. -/
def Terminal.run (r : Responder) : Terminal ε → Prog ε (Option Reply)
  | ok body => some <$> r.ok body
  | status st body => some <$> r.status st body
  | created body => some <$> r.created body
  | accepted body => some <$> r.accepted body
  | noContent => some <$> r.noContent
  | moved location => some <$> r.moved location
  | badRequest body => some <$> r.badRequest body
  | unauthorized body => some <$> r.unauthorized body
  | forbidden body => some <$> r.forbidden body
  | notFound body => some <$> r.notFound body
  | notAllowed => some <$> r.notAllowed
  | conflict body => some <$> r.conflict body
  | gone => some <$> r.gone
  | tooLarge => some <$> r.tooLarge
  | preconditionFailed => some <$> r.preconditionFailed
  | rateLimited retryAfter => some <$> r.rateLimited retryAfter
  | error body => some <$> r.error body
  | unavailable => some <$> r.unavailable
  | timeout => some <$> r.timeout
  | notImplemented => some <$> r.notImplemented
  | notModified etag => some <$> r.notModified etag
  | partialContent body ranges contentType => some <$> r.partialContent body ranges contentType
  | rangeNotSatisfiable totalLen => some <$> r.rangeNotSatisfiable totalLen
  | relay origin => some <$> r.relay origin
  | blit frame => some <$> r.blit frame
  | defer => some <$> r.defer
  | stream path st headers => some <$> r.stream path st headers
  | logDispatch l request nowSecs => l.dispatch request r nowSecs
  | anchorDispatch a request anchorIds nowSecs => a.dispatch request r anchorIds nowSecs

/-- Any operation on a responder. -/
inductive Op (ε : Type) where
  | header (name value : Arg ε Bytes)
  | terminal (t : Terminal ε)
  | capture

/-- Call the operation: the reply, when it is a terminal that returned one. -/
def Op.run (r : Responder) : Op ε → Prog ε (Option Reply)
  | header name value => do
    r.header name value
    return none
  | terminal t => t.run r
  | capture => do
    let _ ← r.capture
    return none

end Terminals

end Nwep.Server
