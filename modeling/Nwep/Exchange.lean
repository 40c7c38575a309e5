/-
A request and its answer, from one program to the other. A method and a status travel as tokens, for which each
side has a table built from the library's names; a path, header names and values travel as C strings, a body with
its length. What the handler reads of a request is what the client passed, and what the client reads of the
response is what the handler answered, with each text up to its first NUL.

The library's part are the names and the messages it decodes; it may set headers of its own around those given.
-/
import Nwep.Lib.Journal
import Nwep.Server.Capture
import Nwep.Server.Kv
import Nwep.Text.Calls

namespace Nwep

open Lib

def Server.Method.code : Server.Method → Nat
  | read => 0
  | write => 1
  | update => 2
  | delete => 3
  | heartbeat => 6
  | head => 7

theorem Server.Method.code_injective : Function.Injective Server.Method.code := by
  rintro (_ | _ | _ | _ | _ | _) (_ | _ | _ | _ | _ | _) h <;> first | rfl | cases h

namespace Exchange

open Text Server

variable {ε : Type}

/-! ## Tokens -/

/-- The library's names of methods and statuses: distinct texts without NUL. -/
structure Names where
  method : Method → List Char
  status : Status → List Char
  method_injective : Function.Injective method
  status_injective : Function.Injective status
  method_nul : ∀ m, '\x00' ∉ method m
  status_nul : ∀ s, '\x00' ∉ status s

def methods : List Method := [.read, .write, .update, .delete, .heartbeat, .head]

def statuses : List Status :=
  [.ok, .created, .accepted, .noContent, .partialContent, .moved, .notModified, .badRequest, .unauthorized,
    .forbidden, .notFound, .notAllowed, .conflict, .gone, .tooLarge, .preconditionFailed, .rangeNotSatisfiable,
    .rateLimited, .error, .unavailable, .timeout, .notImplemented]

/-- `{m.token: m for m in …}`. -/
def byToken {α : Type} (token : α → List Char) (members : List α) : Str → Option α :=
  replay (members.map fun m => ⟨ofChars (token m), some m⟩)

variable (names : Names)

/-- `_METHOD_BY_TOKEN`. -/
def methodByToken : Str → Option Method := byToken names.method methods

/-- `_STATUS_BY_TOKEN`. -/
def statusByToken : Str → Option Status := byToken names.status statuses

theorem ofChars_injective : Function.Injective ofChars := List.map_injective_iff.2 scalar_injective

theorem byToken_token {α : Type} {token : α → List Char} {members : List α} {m : α} (ht : Function.Injective token)
    (hm : m ∈ members) : byToken token members (ofChars (token m)) = some m := by
  refine replay_eq_some.2 (holds_of_mem (List.mem_map.2 ⟨m, hm, rfl⟩) fun c hc hk => ?_)
  obtain ⟨m', -, rfl⟩ := List.mem_map.1 hc
  rw [ht (ofChars_injective hk)]

theorem methodByToken_token (m : Method) : methodByToken names (ofChars (names.method m)) = some m :=
  byToken_token names.method_injective (by cases m <;> decide)

theorem statusByToken_token (s : Status) : statusByToken names (ofChars (names.status s)) = some s :=
  byToken_token names.status_injective (by cases s <;> decide)

/-! ## Messages -/

/-- What the library's accessors give of a decoded message: strings up to their NUL, or `NULL`. -/
structure Message where
  getHeader : Bytes → Option Bytes
  headerAt : Nat → Option (Bytes × Bytes)
  getStatus : Option Bytes
  getBody : Option Bytes

variable (unicodeError : ε) (m : Message)

/-- `.decode("utf-8")`. -/
def decodeUtf8 (b : Bytes) : Arg ε Str :=
  match CString.decode b with
  | some text => .ok (ofChars text)
  | none => .error unicodeError

/-- `message.header`. -/
def header (name : Str) : Arg ε (Option Str) := do
  let name ← encode unicodeError name
  match m.getHeader name with
  | some value => return some (← decodeUtf8 unicodeError value)
  | none => return none

def pairOf (p : Bytes × Bytes) : Arg ε (Str × Str) := do
  let name ← decodeUtf8 unicodeError p.1
  let value ← decodeUtf8 unicodeError p.2
  return (name, value)

/-- `message.headers`, from an index on, taken whole. -/
def headers : Nat → Nat → Option (Arg ε (List (Str × Str)))
  | 0, _ => none
  | fuel + 1, index =>
    match m.headerAt index with
    | none => some (.ok [])
    | some p =>
      match pairOf unicodeError p with
      | .error e => some (.error e)
      | .ok item => (headers fuel (index + 1)).map fun rest => rest.map (item :: ·)

/-- `message.body`. -/
def body : Bytes := m.getBody.getD []

/-- `Request.method`. -/
def method : Arg ε (Option Method) := do
  match ← header unicodeError m (ofChars ":method".toList) with
  | some token => return methodByToken names token
  | none => return none

/-- `Request.path`. -/
def path : Arg ε (Option Str) := header unicodeError m (ofChars ":path".toList)

/-- `Response.status`. -/
def status : Arg ε (Option Status) := do
  match m.getStatus with
  | some token => return statusByToken names (← decodeUtf8 unicodeError token)
  | none => return none

/-! ## Requests and answers -/

/-- What `Client.send` is given. -/
structure Query where
  method : Method
  path : Str
  headers : Option (List (Str × Str))
  body : Bytes

def Query.send (q : Query) : Native.Method ε :=
  Native.Client.send (.ok q.method.code) (encode unicodeError q.path) (.ok q.body)
    (headerArray (headersArg unicodeError q.headers))

/-- What a handler reads. -/
structure Seen where
  method : Option Method
  path : Option Str
  headers : List (Str × Str)
  body : Bytes
deriving DecidableEq

structure Sees (s : Seen) : Prop where
  method : method names unicodeError m = .ok s.method
  path : path unicodeError m = .ok s.path
  headers : ∀ fuel, s.headers.length < fuel → headers unicodeError m fuel 0 = some (.ok s.headers)
  body : body m = s.body

/-- What a handler answers. -/
structure Answer where
  status : Status
  headers : List (Str × Str)
  body : Bytes
deriving DecidableEq

/-- The terminals that give the answer's status and body. -/
def Answer.By (a : Answer) (t : Terminal ε) : Prop :=
  (a.status = .ok ∧ t = .ok (.ok a.body)) ∨
    ∀ r, t.run r = (Terminal.status (.member a.status) (.ok a.body)).run r

def Answer.ops (a : Answer) (t : Terminal ε) : List (Op ε) :=
  (a.headers.map fun p => .header (encode unicodeError p.1) (encode unicodeError p.2)) ++ [.terminal t]

structure Reads (a : Answer) : Prop where
  status : status names unicodeError m = .ok (some a.status)
  headers : ∀ fuel, a.headers.length < fuel → headers unicodeError m fuel 0 = some (.ok a.headers)
  body : body m = a.body

/-! ## The library -/

/-- The C string that starts there. -/
def cString (b : Bytes) : Bytes := CString.read (b ++ [0])

def cEntries : Option (List (Bytes × Bytes)) → List (Bytes × Bytes)
  | none => []
  | some pairs => (CString.entries (pairs.map some ++ [none])).map fun p => (cString p.1, cString p.2)

/-- Headers that the library sets itself. -/
abbrev Own := List (List Char × List Char)

def Own.wire (own : Own) : List (Bytes × Bytes) := own.map fun p => (CString.encode p.1, CString.encode p.2)

def Own.texts (own : Own) : List (Str × Str) := own.map fun p => (ofChars p.1, ofChars p.2)

/-- The message that arrives for a call of `nwep_client_send`. -/
inductive Delivered (before after : Own) : Native.Call → Prop
  | send {handle : Nat} {array : Option (List (Bytes × Bytes))} {method : Method} {path body : Bytes} :
      m.getHeader (CString.encode ":method".toList) = some (CString.encode (names.method method)) →
      m.getHeader (CString.encode ":path".toList) = some (cString path) →
      (∀ i, m.headerAt i = (before.wire ++ cEntries array ++ after.wire)[i]?) →
      m.getBody.getD [] = body →
      Delivered before after ⟨.clientSend, handle, [.headers array, .int method.code, .bytes path, .bytes body]⟩

/-- The headers that were set on the buffer. -/
def given (buf : Nat) (calls : List (Server.Call × Ret)) : List (Bytes × Bytes) :=
  calls.filterMap fun c => match c.1 with
    | .responseHeader b name value => if b = buf ∧ 0 ≤ c.2.rc then some (cString name, cString value) else none
    | _ => none

/-- The message that is returned for the calls on a buffer. -/
structure Returned (before after : Own) (buf : Nat) (calls : List (Server.Call × Ret)) : Prop where
  headers : ∀ i, m.headerAt i = (before.wire ++ given buf calls ++ after.wire)[i]?
  ok : ∀ body ret, (.responseOk buf body, ret) ∈ calls → 0 ≤ ret.rc →
    m.getStatus = some (CString.encode (names.status .ok)) ∧ m.getBody.getD [] = body
  status : ∀ token body ret, (.responseStatus buf token body, ret) ∈ calls → 0 ≤ ret.rc →
    m.getStatus = some (cString token) ∧ m.getBody.getD [] = body

/-- `nwep_status_str` gives the names. -/
def Named (calls : List (Server.Call × Ret)) : Prop :=
  ∀ (s : Status) (ret : Ret), (.statusStr s.code, ret) ∈ calls → ret.rc ≠ 0 ∧ ret.data = CString.encode (names.status s)

/-! ## Reading -/

section Reading

variable {names : Names} {unicodeError : ε} {m : Message} {before after : Own}

theorem encode_ofChars (text : List Char) : encode unicodeError (ofChars text) = .ok (CString.encode text) := by
  induction text with
  | nil => rfl
  | cons c text ih =>
    show (encode unicodeError (ofChars text)).map (String.utf8EncodeChar c ++ ·) = _
    rw [ih]; rfl

theorem decodeUtf8_encode (text : List Char) : decodeUtf8 unicodeError (CString.encode text) = .ok (ofChars text) := by
  unfold decodeUtf8
  rw [CString.decode_encode]

/-- Text that was passed as a C string is read up to its first NUL. -/
theorem decodeUtf8_cString {s : Str} {b : Bytes} (h : encode unicodeError s = .ok b) :
    decodeUtf8 unicodeError (cString b) = .ok (CString.upTo nul s) := by
  obtain ⟨text, rfl, rfl⟩ := encode_ok h
  unfold cString nul
  rw [CString.read_encode, decodeUtf8_encode, CString.upTo_map scalar_injective]; rfl

theorem cString_encode {text : List Char} (h : '\x00' ∉ text) :
    cString (CString.encode text) = CString.encode text := by
  unfold cString
  rw [CString.read_encode, CString.upTo_eq_self.2 h]

/-- A header text, of which a C string goes over. -/
def cut (p : Str × Str) : Str × Str := (CString.upTo nul p.1, CString.upTo nul p.2)

theorem pairOf_cut {p : Str × Str} {b : Bytes × Bytes} (hn : encode unicodeError p.1 = .ok b.1)
    (hv : encode unicodeError p.2 = .ok b.2) : pairOf unicodeError (cString b.1, cString b.2) = .ok (cut p) := by
  unfold pairOf
  rw [decodeUtf8_cString hn, decodeUtf8_cString hv]; rfl

/-- The loop gives the entries that the library has, in their order, and ends. -/
theorem headers_eq {entries : List (Bytes × Bytes)} {texts : List (Str × Str)}
    (h : List.Forall₂ (fun b t => pairOf unicodeError b = .ok t) entries texts) :
    ∀ {fuel index : Nat}, (∀ i, m.headerAt (index + i) = entries[i]?) → texts.length < fuel →
      headers unicodeError m fuel index = some (.ok texts) := by
  induction h with
  | nil =>
    intro fuel index hat hf
    obtain ⟨fuel, rfl⟩ := Nat.exists_eq_succ_of_ne_zero (Nat.ne_of_gt (Nat.zero_lt_of_lt hf))
    unfold headers
    rw [show m.headerAt index = none from hat 0]
  | @cons b t entries texts hb _ ih =>
    intro fuel index hat hf
    obtain ⟨fuel, rfl⟩ := Nat.exists_eq_succ_of_ne_zero (Nat.ne_of_gt (Nat.zero_lt_of_lt hf))
    have hrest : ∀ i, m.headerAt (index + 1 + i) = entries[i]? := fun i => by
      rw [Nat.add_assoc, Nat.add_comm 1 i]; exact hat (i + 1)
    unfold headers
    rw [show m.headerAt index = some b from hat 0]
    simp only [hb]
    rw [ih hrest (Nat.lt_of_succ_lt_succ hf)]; rfl

theorem own_texts (own : Own) : List.Forall₂ (fun b t => pairOf unicodeError b = .ok t) own.wire own.texts := by
  unfold Own.wire Own.texts
  rw [List.forall₂_map_left_iff, List.forall₂_map_right_iff]
  refine List.forall₂_same.2 fun p _ => ?_
  unfold pairOf
  rw [decodeUtf8_encode, decodeUtf8_encode]; rfl

/-- What is read of headers among the library's own. -/
theorem headers_among {items : List (Str × Str)} {entries : List (Bytes × Bytes)}
    (h : List.Forall₂ (fun b t => pairOf unicodeError b = .ok t) entries (items.map cut))
    (hat : ∀ i, m.headerAt i = (before.wire ++ entries ++ after.wire)[i]?) {fuel : Nat}
    (hf : (before.texts ++ items.map cut ++ after.texts).length < fuel) :
    headers unicodeError m fuel 0 = some (.ok (before.texts ++ items.map cut ++ after.texts)) := by
  refine headers_eq (List.rel_append (List.rel_append (own_texts before) h) (own_texts after)) (fun i => ?_) hf
  rw [Nat.zero_add]; exact hat i

theorem header_some {name : List Char} {value : Bytes} (h : m.getHeader (CString.encode name) = some value) :
    header unicodeError m (ofChars name) = (decodeUtf8 unicodeError value).map some := by
  unfold header
  rw [encode_ofChars]
  show (match m.getHeader (CString.encode name) with
    | some value => (do return some (← decodeUtf8 unicodeError value) : Arg ε (Option Str))
    | none => return none) = _
  rw [h]
  show (do return some (← decodeUtf8 unicodeError value) : Arg ε (Option Str)) = _
  cases decodeUtf8 unicodeError value <;> rfl

end Reading

/-! ## Requests -/

section Requests

variable {names : Names} {unicodeError : ε} {m : Message} {before after : Own}

/-- What arrives of a query. -/
def Query.seen (q : Query) (before after : Own) : Seen :=
  ⟨some q.method, some (CString.upTo nul q.path), before.texts ++ (q.headers.getD []).map cut ++ after.texts, q.body⟩

/-- The array has the headers, each string of it up to its NUL. -/
theorem cEntries_encoded {hs : Option (List (Str × Str))} {array : Option (List (Bytes × Bytes))}
    (h : headerArray (headersArg unicodeError hs) = .ok array) :
    List.Forall₂ (fun b t => pairOf unicodeError b = .ok t) (cEntries array) ((hs.getD []).map cut) := by
  rcases headerArray_cases unicodeError hs with ⟨-, e, he⟩ | ⟨pairs, hall, ha⟩
  · rw [he] at h; cases h
  · rw [ha] at h
    cases h
    generalize hs.getD [] = items at hall
    have hpairs : List.Forall₂ (fun b t => pairOf unicodeError b = .ok t)
        (pairs.map fun p => (cString p.1, cString p.2)) (items.map cut) := by
      rw [List.forall₂_map_left_iff, List.forall₂_map_right_iff]
      exact hall.flip.imp fun _ _ hp => pairOf_cut hp.1 hp.2
    cases items with
    | nil => exact .nil
    | cons p items =>
      unfold cEntries
      rw [List.isEmpty_cons, if_neg Bool.false_ne_true]
      dsimp only
      rw [CString.entries_terminated]
      exact hpairs

/-- The handler sees what `Client.send` was given. -/
theorem request_seen {q : Query} {w : Native.Wrapper} {v : Native.Heap} {c : Native.Call} {ret : Ret}
    (hc : (c, ret) ∈ callsOf ((q.send unicodeError).run w) v) (hd : Delivered names m before after c) :
    Sees names unicodeError m (q.seen before after) := by
  rcases (q.send unicodeError).run_calls w v with ⟨-, hnone⟩ | ⟨-, vals, hv, hone⟩
  · rw [hnone] at hc; cases hc
  rw [hone, List.mem_singleton] at hc
  -- the converted parameters, in their order
  obtain _ | ⟨hh, _ | ⟨hmethod, _ | ⟨hp, _ | ⟨hb, ⟨⟩⟩⟩⟩⟩ := params_ok hv
  obtain ⟨path, hpath, rfl⟩ := bytes_ok hp
  cases hb
  cases hmethod
  cases hd with
  | @send handle array method path' body hgetMethod hgetPath hheaders hbody =>
    cases ha : headerArray (headersArg unicodeError q.headers) with
    | error e => rw [ha] at hh; cases hh
    | ok array' =>
      rw [ha] at hh
      cases hh
      simp only [Prod.mk.injEq, Native.Call.mk.injEq, List.cons.injEq, Native.Val.headers.injEq, Native.Val.int.injEq,
        Native.Val.bytes.injEq, and_true] at hc
      obtain ⟨⟨-, -, rfl, hcode, rfl, rfl⟩, -⟩ := hc
      obtain rfl := Method.code_injective (Int.ofNat.inj hcode)
      refine ⟨?_, ?_, fun fuel hf => headers_among (cEntries_encoded ha) hheaders hf, hbody⟩
      · unfold Exchange.method
        rw [header_some hgetMethod, decodeUtf8_encode]
        exact congrArg Except.ok (methodByToken_token names q.method)
      · unfold Exchange.path
        rw [header_some hgetPath, decodeUtf8_cString hpath]; rfl

end Requests

/-! ## Responses -/

section Responses

variable {names : Names} {unicodeError : ε} {m : Message} {before after : Own} {r : Responder}

/-- What is read of an answer. -/
def Answer.read (a : Answer) (before after : Own) : Answer :=
  ⟨a.status, before.texts ++ a.headers.map cut ++ after.texts, a.body⟩

/-- A call that was checked and returned no error. -/
theorem checked_returned {c : Server.Call} {w v : World Server.Call Ret Flags} {ret : Ret}
    (h : (checked c : Server.Prog ε Ret) w = .ok ret v) :
    0 ≤ ret.rc ∧ v.log = w.log ++ [(c, ret)] := by
  by_cases hr : 0 ≤ (w.ret w.log.length).rc
  · rw [checked_ok c hr] at h
    cases h
    exact ⟨hr, w.called_log c⟩
  · obtain ⟨code, he⟩ := checked_error (ε := ε) c hr
    rw [he] at h; cases h

theorem claim_returned {w v : World Server.Call Ret Flags} (h : (r.claim : Server.Prog ε Unit) w = .ok () v) :
    v.log = w.log := by
  cases hu : w.objs.used r.id with
  | true => rw [claim_used hu] at h; cases h
  | false => rw [claim_free hu] at h; cases h; rfl

/-- The calls of the answer's terminal: it is `ok`, or asks for the token and sends it. -/
inductive Ends (a : Answer) (buf : Nat) : List (Server.Call × Ret) → Prop
  | ok {ret : Ret} : a.status = .ok → 0 ≤ ret.rc → Ends a buf [(.responseOk buf a.body, ret)]
  | status {name ret : Ret} : 0 ≤ ret.rc →
      Ends a buf [(.statusStr a.status.code, name),
        (.responseStatus buf (if name.rc = 0 then utf8 ("status-" ++ toString a.status.code) else name.data) a.body,
          ret)]

theorem ends_terminal {a : Answer} {t : Terminal ε} {w v : World Server.Call Ret Flags} {reply : Option Reply}
    (ht : a.By t) (h : t.run r w = .ok reply v) : ∃ calls, Ends a r.buf calls ∧ v.log = w.log ++ calls := by
  rcases ht with ⟨hstatus, rfl⟩ | hrun
  · obtain ⟨reply', h, -⟩ := map_ok h
    obtain ⟨_, u, hclaim, h⟩ := bind_ok h
    rw [bind_of_ok (arg_ok a.body u)] at h
    obtain ⟨ret, u', hret, h⟩ := bind_ok h
    cases h
    obtain ⟨hrc, hlog⟩ := checked_returned hret
    exact ⟨_, .ok hstatus hrc, by rw [hlog, claim_returned hclaim]⟩
  · rw [hrun] at h
    obtain ⟨reply', h, -⟩ := map_ok h
    obtain ⟨_, u, hclaim, h⟩ := bind_ok h
    have htoken : (StatusArg.encode (.member a.status) : Server.Prog ε Bytes) u =
        .ok (if (u.ret u.log.length).rc = 0 then utf8 ("status-" ++ toString a.status.code)
          else (u.ret u.log.length).data) (u.called (.statusStr a.status.code)) := bind_of_ok (call_ok _ u) _
    rw [bind_of_ok htoken, bind_of_ok (arg_ok a.body _)] at h
    obtain ⟨ret, u', hret, h⟩ := bind_ok h
    cases h
    obtain ⟨hrc, hlog⟩ := checked_returned hret
    have hends : Ends a r.buf [(.statusStr a.status.code, u.ret u.log.length), _] := .status hrc
    refine ⟨_, hends, ?_⟩
    rw [hlog, World.called_log, claim_returned hclaim, List.append_assoc]; rfl

/-- A header that went through. -/
theorem header_returned {p : Str × Str} {w v : World Server.Call Ret Flags} {reply : Option Reply}
    (h : (Op.header (encode unicodeError p.1) (encode unicodeError p.2)).run r w = .ok reply v) :
    reply = none ∧ ∃ (b : Bytes × Bytes) (ret : Ret), encode unicodeError p.1 = .ok b.1 ∧
      encode unicodeError p.2 = .ok b.2 ∧ 0 ≤ ret.rc ∧ v.log = w.log ++ [(.responseHeader r.buf b.1 b.2, ret)] := by
  obtain ⟨_, u, hheader, h⟩ := bind_ok h
  cases h
  refine ⟨rfl, ?_⟩
  unfold Responder.header at hheader
  cases hn : encode unicodeError p.1 with
  | error e => rw [hn] at hheader; cases hheader
  | ok name =>
    cases hv : encode unicodeError p.2 with
    | error e => rw [hn, hv] at hheader; cases hheader
    | ok value =>
      rw [hn, hv, bind_of_ok (arg_ok name w), bind_of_ok (arg_ok value w)] at hheader
      obtain ⟨ret, u', hret, h⟩ := bind_ok hheader
      cases h
      obtain ⟨hrc, hlog⟩ := checked_returned hret
      exact ⟨(name, value), ret, rfl, rfl, hrc, hlog⟩

/-- The headers that were given, and the terminal's calls after theirs. -/
theorem answer_calls {a : Answer} {t : Terminal ε} (ht : a.By t) : ∀ (hs : List (Str × Str))
    {w : World Server.Call Ret Flags} {reply : Reply},
    (play r ((hs.map fun p => Op.header (encode unicodeError p.1) (encode unicodeError p.2)) ++
      [.terminal t]) w).ending = .ok (some reply) →
    ∃ set calls, (play r ((hs.map fun p => Op.header (encode unicodeError p.1) (encode unicodeError p.2)) ++
        [.terminal t]) w).world.log = w.log ++ (set ++ calls) ∧
      Ends a r.buf calls ∧ (∀ c ∈ set, ∃ name value, c.1 = .responseHeader r.buf name value) ∧
      List.Forall₂ (fun b t => pairOf unicodeError b = .ok t) (given r.buf set) (hs.map cut)
  | [], w, reply, h => by
    change (play r [.terminal t] w).ending = _ at h
    show ∃ set calls, (play r [.terminal t] w).world.log = _ ∧ _
    unfold play at h ⊢
    cases hr : (Op.terminal t).run r w with
    | error e v => rw [hr] at h; cases h
    | ok reply' v =>
      obtain ⟨calls, hends, hlog⟩ := ends_terminal ht hr
      refine ⟨[], calls, ?_, hends, fun c hc => absurd hc List.not_mem_nil, .nil⟩
      cases reply' <;> exact hlog
  | p :: hs, w, reply, h => by
    simp only [List.map_cons, List.cons_append] at h ⊢
    unfold play at h ⊢
    cases hr : (Op.header (encode unicodeError p.1) (encode unicodeError p.2)).run r w with
    | error e v => rw [hr] at h; cases h
    | ok reply' v =>
      obtain ⟨rfl, b, ret, hn, hv, hrc, hlog⟩ := header_returned hr
      rw [hr] at h
      obtain ⟨set, calls, hplay, hends, hset, hgiven⟩ := answer_calls ht hs h
      refine ⟨(.responseHeader r.buf b.1 b.2, ret) :: set, calls, ?_, hends, ?_, ?_⟩
      · show (play r _ v).world.log = _
        rw [hplay, hlog, List.append_assoc]; rfl
      · exact List.forall_mem_cons.2 ⟨⟨_, _, rfl⟩, hset⟩
      · have hfirst : given r.buf ((.responseHeader r.buf b.1 b.2, ret) :: set) =
            (cString b.1, cString b.2) :: given r.buf set := by
          unfold given
          exact List.filterMap_cons_some (if_pos ⟨rfl, hrc⟩)
        rw [hfirst]
        exact .cons (pairOf_cut hn hv) hgiven

/-- The client reads what the handler answered. -/
theorem response_read {a : Answer} {t : Terminal ε} (ht : a.By t) {w : World Server.Call Ret Flags} {reply : Reply}
    {calls : List (Server.Call × Ret)} (hend : (play r (a.ops unicodeError t) w).ending = .ok (some reply))
    (hlog : (play r (a.ops unicodeError t) w).world.log = w.log ++ calls) (hnamed : Named names calls)
    (hr : Returned names m before after r.buf calls) : Reads names unicodeError m (a.read before after) := by
  obtain ⟨set, last, hplay, hends, hset, hgiven⟩ := answer_calls ht a.headers hend
  obtain rfl : set ++ last = calls := List.append_cancel_left (hplay.symm.trans hlog)
  -- the terminal sets no header
  have hheaders : given r.buf (set ++ last) = given r.buf set := by
    have hnone : given r.buf last = [] := by cases hends <;> rfl
    unfold given at hnone ⊢
    rw [List.filterMap_append, hnone, List.append_nil]
  have hat := hr.headers
  rw [hheaders] at hat
  have hbody : m.getStatus = some (CString.encode (names.status a.status)) ∧ m.getBody.getD [] = a.body := by
    cases hends with
    | ok hstatus hrc =>
      rw [hstatus]
      exact hr.ok _ _ (List.mem_append_right _ List.mem_cons_self) hrc
    | @status name ret hrc =>
      obtain ⟨hname, hdata⟩ := hnamed a.status name (List.mem_append_right _ List.mem_cons_self)
      have hlast := hr.status _ _ _ (List.mem_append_right _ (List.mem_cons_of_mem _ List.mem_cons_self)) hrc
      rwa [if_neg hname, hdata, cString_encode (names.status_nul a.status)] at hlast
  refine ⟨?_, fun fuel hf => headers_among hgiven hat hf, hbody.2⟩
  unfold Exchange.status
  rw [hbody.1]
  show (do return statusByToken names (← decodeUtf8 unicodeError _) : Arg ε (Option Status)) = _
  rw [decodeUtf8_encode]
  exact congrArg Except.ok (statusByToken_token names a.status)

end Responses

/-! ## Both ways -/

section Exchanged

variable {names : Names} {unicodeError : ε}

/-- The query and the answer as they were given, among the library's own headers. -/
def Query.whole (q : Query) (before after : Own) : Seen :=
  ⟨some q.method, some q.path, before.texts ++ q.headers.getD [] ++ after.texts, q.body⟩

def Answer.whole (a : Answer) (before after : Own) : Answer :=
  { a with headers := before.texts ++ a.headers ++ after.texts }

def NoNul (p : Str × Str) : Prop := nul ∉ p.1 ∧ nul ∉ p.2

instance : DecidablePred NoNul := fun _ => inferInstanceAs (Decidable (_ ∧ _))

theorem map_cut_eq {hs : List (Str × Str)} : hs.map cut = hs ↔ ∀ p ∈ hs, NoNul p := by
  have hid : hs.map cut = hs ↔ hs.map cut = hs.map id := by rw [List.map_id]
  rw [hid, List.map_inj_left]
  refine forall₂_congr fun p _ => ?_
  unfold cut NoNul
  rw [id, Prod.ext_iff, CString.upTo_eq_self, CString.upTo_eq_self]

theorem seen_whole {q : Query} {before after : Own} :
    q.seen before after = q.whole before after ↔ nul ∉ q.path ∧ ∀ p ∈ q.headers.getD [], NoNul p := by
  unfold Query.seen Query.whole
  simp only [Seen.mk.injEq, Option.some.injEq, CString.upTo_eq_self, List.append_left_inj, List.append_right_inj,
    map_cut_eq, true_and, and_true]

theorem read_whole {a : Answer} {before after : Own} :
    a.read before after = a.whole before after ↔ ∀ p ∈ a.headers, NoNul p := by
  unfold Answer.read Answer.whole
  simp only [Answer.mk.injEq, List.append_left_inj, List.append_right_inj, map_cut_eq, true_and, and_true]

/-- A query sent and answered, whatever the handler computes of it: the handler sees the query and the client reads
the answer, the headers in their order among the library's own, and the texts up to their first NULs; so each of
them arrives as it was given if and only if none of its texts has a NUL. -/
theorem exchanged {q : Query} {w : Native.Wrapper} {v : Native.Heap} {c : Native.Call} {ret : Ret}
    {request response : Message} {before after before' after' : Own} (f : Seen → Answer) {t : Terminal ε}
    {r : Responder} {u : World Server.Call Ret Flags} {reply : Reply} {calls : List (Server.Call × Ret)}
    (hc : (c, ret) ∈ callsOf ((q.send unicodeError).run w) v) (hd : Delivered names request before after c)
    (ht : (f (q.seen before after)).By t)
    (hend : (play r ((f (q.seen before after)).ops unicodeError t) u).ending = .ok (some reply))
    (hlog : (play r ((f (q.seen before after)).ops unicodeError t) u).world.log = u.log ++ calls)
    (hnamed : Named names calls) (hr : Returned names response before' after' r.buf calls) :
    Sees names unicodeError request (q.seen before after) ∧
    Reads names unicodeError response ((f (q.seen before after)).read before' after') ∧
    (q.seen before after = q.whole before after ↔ nul ∉ q.path ∧ ∀ p ∈ q.headers.getD [], NoNul p) ∧
    ((f (q.seen before after)).read before' after' = (f (q.seen before after)).whole before' after' ↔
      ∀ p ∈ (f (q.seen before after)).headers, NoNul p) :=
  ⟨request_seen hc hd, response_read ht hend hlog hnamed hr, seen_whole, read_whole⟩

/-- The tokens of the protocol. -/
def methodName : Method → String
  | .read => "read"
  | .write => "write"
  | .update => "update"
  | .delete => "delete"
  | .heartbeat => "heartbeat"
  | .head => "head"

def statusName : Status → String
  | .ok => "ok"
  | .created => "created"
  | .accepted => "accepted"
  | .noContent => "no-content"
  | .partialContent => "partial-content"
  | .moved => "moved"
  | .notModified => "not-modified"
  | .badRequest => "bad-request"
  | .unauthorized => "unauthorized"
  | .forbidden => "forbidden"
  | .notFound => "not-found"
  | .notAllowed => "not-allowed"
  | .conflict => "conflict"
  | .gone => "gone"
  | .tooLarge => "too-large"
  | .preconditionFailed => "precondition-failed"
  | .rangeNotSatisfiable => "range-not-satisfiable"
  | .rateLimited => "rate-limited"
  | .error => "error"
  | .unavailable => "unavailable"
  | .timeout => "timeout"
  | .notImplemented => "not-implemented"

def protocol : Names where
  method m := (methodName m).toList
  status s := (statusName s).toList
  method_injective := Function.LeftInverse.injective
    (g := fun token => (methods.find? fun m => (methodName m).toList = token).getD .read) fun m => by cases m <;> decide
  status_injective := Function.LeftInverse.injective
    (g := fun token => (statuses.find? fun s => (statusName s).toList = token).getD .ok) fun s => by cases s <;> decide
  method_nul m := by cases m <;> decide
  status_nul s := by cases s <;> decide

/-- A note that is written, and the answer where it is found. -/
def noteWritten : Query :=
  ⟨.write, ofChars "/notes".toList, some [(ofChars "x-tag".toList, ofChars "draft".toList)], [104, 105]⟩

def noteCreated (s : Seen) : Answer := ⟨.created, [(ofChars "location".toList, ofChars "/notes/1".toList)], s.body⟩

/-- A message, with the pseudo-headers that only their names get. -/
def messageOf (pseudo : List (Bytes × Bytes)) (status : Option Bytes) (headers : Own) (body : Bytes) : Message where
  getHeader name := (pseudo.find? fun p => p.1 = name).map Prod.snd
  headerAt i := headers.wire[i]?
  getStatus := status
  getBody := some body

def noteRequest : Message :=
  messageOf [(CString.encode ":method".toList, CString.encode "write".toList),
    (CString.encode ":path".toList, CString.encode "/notes".toList)] none [("x-tag".toList, "draft".toList)] [104, 105]

def noteResponse : Message :=
  messageOf [] (some (CString.encode "created".toList)) [("location".toList, "/notes/1".toList)] [104, 105]

/-- The call of the client, and those of the handler. -/
def noteSent : Native.Call :=
  ⟨.clientSend, 7, [.headers (some [(CString.encode "x-tag".toList, CString.encode "draft".toList)]), .int 1,
    .bytes (CString.encode "/notes".toList), .bytes [104, 105]]⟩

def noteAnswered : List (Server.Call × Ret) :=
  [(.responseHeader 5 (CString.encode "location".toList) (CString.encode "/notes/1".toList), ⟨0, 0, []⟩),
    (.statusStr 1, ⟨7, 0, CString.encode "created".toList⟩),
    (.responseStatus 5 (CString.encode "created".toList) [104, 105], ⟨0, 0, []⟩)]

theorem noteAnswered_named : Named protocol noteAnswered := by
  intro s ret h
  simp only [noteAnswered, List.mem_cons, Prod.mk.injEq, Call.statusStr.injEq, reduceCtorEq, false_and, false_or,
    or_false, List.not_mem_nil] at h
  obtain ⟨hs, rfl⟩ := h
  cases s <;> first | exact ⟨by decide, rfl⟩ | cases hs

theorem noteAnswered_returned : Returned protocol noteResponse [] [] 5 noteAnswered where
  headers _ := rfl
  ok body ret h := by simp [noteAnswered] at h
  status token body ret h _ := by
    simp only [noteAnswered, List.mem_cons, Prod.mk.injEq, Call.responseStatus.injEq, reduceCtorEq, false_and, false_or,
      or_false, true_and, List.not_mem_nil] at h
    obtain ⟨⟨rfl, rfl⟩, -⟩ := h
    exact ⟨rfl, rfl⟩

theorem exchanged_note : Sees protocol () noteRequest (noteWritten.whole [] []) ∧
    Reads protocol () noteResponse ((noteCreated (noteWritten.whole [] [])).whole [] []) := by
  let v : Native.Heap := ⟨fun _ => {}, fun _ => ⟨0, 9, []⟩, []⟩
  let u : World Server.Call Ret Flags :=
    ⟨⟨fun _ => false⟩, fun i => if i = 1 then ⟨7, 0, CString.encode "created".toList⟩ else ⟨0, 0, []⟩, []⟩
  let r : Responder := ⟨0, 5, 1, 2, 4⟩
  let created : Terminal Unit := .created (.ok [104, 105])
  have hc : (noteSent, ⟨0, 9, []⟩) ∈ callsOf ((noteWritten.send ()).run ⟨0, 7⟩) v := List.mem_singleton_self _
  have hd : Delivered protocol noteRequest [] [] noteSent := by
    refine @Delivered.send _ _ _ _ _ _ .write _ _ ?_ ?_ ?_ ?_
    exacts [rfl, rfl, fun _ => rfl, rfl]
  have ht : (noteCreated (noteWritten.seen [] [])).By created := .inr fun _ => rfl
  have hend : (play r ((noteCreated (noteWritten.seen [] [])).ops () created) u).ending = .ok (some {}) := rfl
  have hlog : (play r ((noteCreated (noteWritten.seen [] [])).ops () created) u).world.log = u.log ++ noteAnswered :=
    rfl
  obtain ⟨hsees, hreads, hseen, hread⟩ :=
    exchanged noteCreated hc hd ht hend hlog noteAnswered_named noteAnswered_returned
  rw [hseen.2 (by decide)] at hsees hreads hread
  rw [hread.2 (by decide)] at hreads
  exact ⟨hsees, hreads⟩

end Exchanged

end Exchange

end Nwep
