/-
The functions that take a `const char *`: request paths, cache keys, header names and values, status
tokens, events, entity tags and content types. Each hands over its strings as they were encoded, so what
the C side reads of a call depends on the NULs in them alone.
-/
import Nwep.Native.Effect
import Nwep.Server.Answered
import Nwep.Text

namespace Nwep.Text

open Lib CString

variable {ε : Type} {unicodeError : ε} {ts : List Str}

/-! ## Methods on handles -/

/-- The `const char *` parameters of a call on a handle. -/
def handleTexts (c : Native.Call) : List Bytes :=
  match c.fn, c.args with
  | .clientSend, [_, _, .bytes path, _] | .clientRequestSubmit, [_, _, .bytes path, _] => [path]
  | .clientOpenStream, [_, _, .bytes path] => [path]
  | .clientVerifyResponse, [_, .bytes path, _] => [path]
  | .messageGetHeader, [.bytes name] => [name]
  | .cachePutSigned, [.bytes method, .bytes path, _, _, _] => [method, path]
  | .cacheGetSigned, [.bytes method, .bytes path, _, _] => [method, path]
  | .serverRespond, [.bytes token, _, _, _] => [token]
  | .serverRespondHeader, [.bytes name, .bytes value, _, _] => [name, value]
  | .serverNotify, [_, .bytes event, _, _] => [event]
  | _, _ => []

/-- A method that is given the strings, and any other parameters. -/
inductive OnHandle (unicodeError : ε) : List Str → Native.Method ε → Prop where
  | send (method path body headers) :
      OnHandle unicodeError [path] (Native.Client.send method (encode unicodeError path) body headers)
  | submit (method path body headers) :
      OnHandle unicodeError [path] (Native.Client.submit method (encode unicodeError path) body headers)
  | openStream (method path headers) :
      OnHandle unicodeError [path] (Native.Client.openStream method (encode unicodeError path) headers)
  | verifyResponse (path now response) :
      OnHandle unicodeError [path] (Native.Client.verifyResponse (encode unicodeError path) now response)
  | header (name) : OnHandle unicodeError [name] (Native.Response.header (encode unicodeError name))
  | putSigned (method path originPubkey now response) :
      OnHandle unicodeError [method, path]
        (Native.Cache.putSigned (encode unicodeError method) (encode unicodeError path) originPubkey now response)
  | getSigned (method path originPubkey now) :
      OnHandle unicodeError [method, path]
        (Native.Cache.getSigned (encode unicodeError method) (encode unicodeError path) originPubkey now)
  | respond (conn stream body token) :
      OnHandle unicodeError [token] (Native.Server.respond conn stream body (encode unicodeError token))
  | respondHeader (conn stream name value) :
      OnHandle unicodeError [name, value]
        (Native.Server.respondHeader conn stream (encode unicodeError name) (encode unicodeError value))
  | notify (conn body event headers) :
      OnHandle unicodeError [event] (Native.Server.notify conn body (encode unicodeError event) headers)

/-- The parameters of a call are the conversions, in their order. -/
theorem params_ok {m : Native.Method ε} {vals : List Native.Val} (h : m.params = .ok vals) :
    List.Forall₂ (fun a v => a = .ok v) m.args vals := by
  unfold Native.Method.params at h
  cases hc : m.checks.forM id with
  | error e => rw [hc] at h; cases h
  | ok u => rw [hc] at h; exact mapM_ok h

theorem bytes_ok {s : Str} {v : Native.Val} (h : Native.bytes (encode unicodeError s) = .ok v) :
    ∃ b, encode unicodeError s = .ok b ∧ v = .bytes b := by
  cases hs : encode unicodeError s with
  | error e => rw [hs] at h; cases h
  | ok b => rw [hs] at h; cases h; exact ⟨b, rfl, rfl⟩

/-- The call has the encoded strings where its function reads text. -/
theorem OnHandle.encoded {m : Native.Method ε} (h : OnHandle unicodeError ts m) {vals : List Native.Val}
    (hv : m.params = .ok vals) (handle : Nat) : Encoded unicodeError ts (handleTexts ⟨m.fn, handle, vals⟩) := by
  have hall := params_ok hv
  -- the strings stand at the places where `handleTexts` looks for them
  cases h with
  | send | submit =>
    obtain _ | ⟨-, _ | ⟨-, _ | ⟨hp, _ | ⟨-, ⟨⟩⟩⟩⟩⟩ := hall
    obtain ⟨b, hb, rfl⟩ := bytes_ok hp
    exact .cons hb .nil
  | openStream =>
    obtain _ | ⟨-, _ | ⟨-, _ | ⟨hp, ⟨⟩⟩⟩⟩ := hall
    obtain ⟨b, hb, rfl⟩ := bytes_ok hp
    exact .cons hb .nil
  | verifyResponse =>
    obtain _ | ⟨-, _ | ⟨hp, _ | ⟨-, ⟨⟩⟩⟩⟩ := hall
    obtain ⟨b, hb, rfl⟩ := bytes_ok hp
    exact .cons hb .nil
  | header =>
    obtain _ | ⟨hp, ⟨⟩⟩ := hall
    obtain ⟨b, hb, rfl⟩ := bytes_ok hp
    exact .cons hb .nil
  | putSigned =>
    obtain _ | ⟨hm, _ | ⟨hp, _ | ⟨-, _ | ⟨-, _ | ⟨-, ⟨⟩⟩⟩⟩⟩⟩ := hall
    obtain ⟨a, ha, rfl⟩ := bytes_ok hm
    obtain ⟨b, hb, rfl⟩ := bytes_ok hp
    exact .cons ha (.cons hb .nil)
  | getSigned | respondHeader =>
    obtain _ | ⟨hm, _ | ⟨hp, _ | ⟨-, _ | ⟨-, ⟨⟩⟩⟩⟩⟩ := hall
    obtain ⟨a, ha, rfl⟩ := bytes_ok hm
    obtain ⟨b, hb, rfl⟩ := bytes_ok hp
    exact .cons ha (.cons hb .nil)
  | respond =>
    obtain _ | ⟨hp, _ | ⟨-, _ | ⟨-, _ | ⟨-, ⟨⟩⟩⟩⟩⟩ := hall
    obtain ⟨b, hb, rfl⟩ := bytes_ok hp
    exact .cons hb .nil
  | notify =>
    obtain _ | ⟨-, _ | ⟨hp, _ | ⟨-, _ | ⟨-, ⟨⟩⟩⟩⟩⟩ := hall
    obtain ⟨b, hb, rfl⟩ := bytes_ok hp
    exact .cons hb .nil

theorem OnHandle.encoded_call {m : Native.Method ε} (h : OnHandle unicodeError ts m) {w : Native.Wrapper}
    {v : Native.Heap}
    {c : Native.Call × Ret} (hc : c ∈ callsOf (m.run w) v) : Encoded unicodeError ts (handleTexts c.1) := by
  rcases m.run_calls w v with ⟨-, hnone⟩ | ⟨-, vals, hv, hone⟩
  · rw [hnone] at hc; cases hc
  · rw [hone, List.mem_singleton] at hc
    exact hc ▸ h.encoded hv w.handle

theorem OnHandle.ne_nil {m : Native.Method ε} (h : OnHandle unicodeError ts m) : ts ≠ [] := by
  cases h <;> exact List.cons_ne_nil _ _

theorem OnHandle.hands {m : Native.Method ε} (h : OnHandle unicodeError ts m) (w : Native.Wrapper) (v : Native.Heap) :
    Hands unicodeError handleTexts ts (¬ m.Passes w v) (callsOf (m.run w) v) := by
  rcases m.run_calls w v with ⟨hn, hc⟩ | ⟨hp, vals, hv, hc⟩
  · rw [hc]; exact hands_nil hn
  · rw [hc]; exact hands_single (not_not_intro hp) h.ne_nil (h.encoded hv w.handle)

/-! ## Operations on responders -/

section Responder

open Server

/-- The `const char *` parameters of a call on a buffer. -/
def bufferTexts : Server.Call → List Bytes
  | .responseHeader _ name value => [name, value]
  | .responseStatus _ token _ => [token]
  | .responseNotModified _ etag => [etag]
  | .responsePartial _ _ _ contentType => [contentType]
  | _ => []

/-- The path a stream begins with, which a `Status` member's token is looked up before. -/
def streamPath : Server.Call → List Bytes
  | .serverBeginStream _ _ _ path _ _ => [path]
  | _ => []

def streamToken : Server.Call → List Bytes
  | .serverBeginStream _ _ _ _ token _ => [token]
  | _ => []

/-- A raw token that cannot be encoded. -/
def StatusFails : StatusArg ε → Prop
  | .member _ => False
  | .text token => Fails token

/-- An operation that is given the strings, with what its calls are read by and what refuses it. -/
inductive OnResponder (unicodeError : ε) (used : Prop) :
    (Server.Call → List Bytes) → List Str → Prop → Op ε → Prop where
  | header (name value) :
      OnResponder unicodeError used bufferTexts [name, value]
        (Fails (encode unicodeError name) ∨ Fails (encode unicodeError value))
        (.header (encode unicodeError name) (encode unicodeError value))
  | status (token body) :
      OnResponder unicodeError used bufferTexts [token] (used ∨ Fails (encode unicodeError token) ∨ Fails body)
        (.terminal (.status (.text (encode unicodeError token)) body))
  | notModified (etag) :
      OnResponder unicodeError used bufferTexts [etag] (used ∨ Fails (encode unicodeError etag))
        (.terminal (.notModified (encode unicodeError etag)))
  | partialContent (body ranges contentType) :
      OnResponder unicodeError used bufferTexts [contentType]
        (ranges = [] ∨ used ∨ (∃ range ∈ ranges, Fails range) ∨ Fails body ∨ Fails (encode unicodeError contentType))
        (.terminal (.partialContent body ranges (encode unicodeError contentType)))
  | streamPath (path status headers) :
      OnResponder unicodeError used streamPath [path]
        (used ∨ Fails (headerArray headers) ∨ Fails (encode unicodeError path) ∨ StatusFails status)
        (.terminal (.stream (encode unicodeError path) status headers))
  | streamToken (path token headers) :
      OnResponder unicodeError used streamToken [token]
        (used ∨ Fails (headerArray headers) ∨ Fails path ∨ Fails (encode unicodeError token))
        (.terminal (.stream path (.text (encode unicodeError token)) headers))

section

variable {α β : Type} {texts : Server.Call → List Bytes} {refused : Prop} {w : World Server.Call Ret Flags}

theorem hands_claim {r : Responder} {f : Unit → Server.Prog ε β}
    (h : ∀ v : World Server.Call Ret Flags, Hands unicodeError texts ts refused (callsOf (f ()) v)) :
    Hands unicodeError texts ts (w.objs.used r.id = true ∨ refused) (callsOf (r.claim >>= f) w) := by
  refine hands_or (fun hu => callsOf_bind_error (claim_used hu) rfl) fun hu => ?_
  rw [callsOf_bind_ok (claim_free (Bool.eq_false_iff.2 hu)) rfl]
  exact h _

theorem after_checked (c : Server.Call) (a : α) (w : World Server.Call Ret Flags) :
    after (do let _ ← checked c; return a : Server.Prog ε α) w = w.called c := by
  rcases checked_cases (ε := ε) c w with ⟨ret, h⟩ | ⟨code, h⟩
  · rw [after_bind_ok h]; rfl
  · rw [after_bind_error h]

theorem hands_checked {c : Server.Call} {a : α} (hne : ts ≠ []) (hc : Encoded unicodeError ts (texts c)) :
    Hands unicodeError texts ts False (callsOf (do let _ ← checked c; return a : Server.Prog ε α) w) :=
  hands_called (after_checked c a w) hne hc

/-- A member's token is looked up first, in a call that carries no text. -/
theorem hands_member {code : Nat} {c : Bytes → Server.Call} {a : α} (hne : ts ≠ [])
    (hcode : texts (.statusStr code) = []) (hc : ∀ token, Encoded unicodeError ts (texts (c token))) :
    Hands unicodeError texts ts False (callsOf (do
      let token ← statusToken code
      let _ ← checked (c token)
      return a : Server.Prog ε α) w) := by
  have htoken : ∃ token, (statusToken code : Server.Prog ε Bytes) w = .ok token (w.called (.statusStr code)) := ⟨_, rfl⟩
  obtain ⟨token, ht⟩ := htoken
  rw [callsOf_called_called ((after_bind_ok ht _).trans (after_checked (c token) a _))]
  refine .inr ⟨id, ⟨(c token, _), List.mem_cons_of_mem _ (List.mem_singleton_self _), fun h => ?_⟩, fun d hd hd' => ?_⟩
  · have he := hc token
    rw [h] at he
    exact hne (List.forall₂_nil_right_iff.1 he)
  · rcases List.mem_cons.1 hd with rfl | hd
    · exact absurd hcode hd'
    · rw [List.mem_singleton] at hd
      exact hd ▸ hc token

end

/-- A list of ranges is refused with one of them. -/
theorem fails_ranges {ranges : List (Arg ε (Nat × Nat))} : Fails (ranges.mapM id) ↔ ∃ range ∈ ranges, Fails range := by
  constructor
  · rintro ⟨e, he⟩
    obtain ⟨range, hr, hf⟩ := mapM_error he
    exact ⟨range, hr, e, hf⟩
  · rintro ⟨range, hr, e, hf⟩
    cases hm : ranges.mapM id with
    | error e => exact ⟨e, rfl⟩
    | ok as =>
      obtain ⟨b, hb⟩ := mapM_ok_mem hm range hr
      cases hf.symm.trans hb

theorem OnResponder.hands {r : Responder} {w : World Server.Call Ret Flags} {texts : Server.Call → List Bytes}
    {refused : Prop} {op : Op ε} (h : OnResponder unicodeError (w.objs.used r.id = true) texts ts refused op) :
    Hands unicodeError texts ts refused (callsOf (op.run r) w) := by
  cases h with
  | header name value =>
    unfold Op.run Responder.header
    simp only [bind_assoc, pure_bind]
    refine hands_arg rfl fun a ha => hands_arg_last rfl fun b hb => ?_
    exact hands_checked (List.cons_ne_nil _ _) (.cons ha (.cons hb .nil))
  | status token body =>
    show Hands _ _ _ _ (callsOf (some <$> r.status _ body) w)
    rw [callsOf_map]
    unfold Responder.status
    refine hands_claim fun v => hands_arg rfl fun b hb => hands_arg_last rfl fun d hd => ?_
    exact hands_checked (List.cons_ne_nil _ _) (.cons hb .nil)
  | notModified etag =>
    show Hands _ _ _ _ (callsOf (some <$> r.notModified _) w)
    rw [callsOf_map]
    unfold Responder.notModified
    refine hands_claim fun v => hands_arg_last rfl fun b hb => ?_
    exact hands_checked (List.cons_ne_nil _ _) (.cons hb .nil)
  | partialContent body ranges contentType =>
    show Hands _ _ _ _ (callsOf (some <$> r.partialContent body ranges _) w)
    rw [callsOf_map, ← fails_ranges]
    unfold Responder.partialContent
    refine hands_or (fun hempty => ?_) fun hne => ?_
    · rw [if_pos (List.isEmpty_iff.2 hempty)]
      exact callsOf_error (e := .valueError Responder.noRanges) (by rfl)
    rw [if_neg fun he => hne (List.isEmpty_iff.1 he)]
    refine hands_claim fun v => hands_arg (mapM_eq_arg (fun _ _ => rfl) v ranges) fun a ha => ?_
    refine hands_arg rfl fun b hb => hands_arg_last rfl fun d hd => ?_
    exact hands_checked (List.cons_ne_nil _ _) (.cons hd .nil)
  | streamPath path status headers =>
    show Hands _ _ _ _ (callsOf (some <$> r.stream _ status headers) w)
    rw [callsOf_map]
    unfold Responder.stream
    refine hands_claim fun v => hands_arg (encodeHeaders_eq headers v) fun a ha => hands_arg rfl fun b hb => ?_
    cases status with
    | member s => exact hands_member (List.cons_ne_nil _ _) rfl fun _ => .cons hb .nil
    | text token =>
      exact hands_arg_last rfl fun d hd => hands_checked (List.cons_ne_nil _ _) (.cons hb .nil)
  | streamToken path token headers =>
    show Hands _ _ _ _ (callsOf (some <$> r.stream path _ headers) w)
    rw [callsOf_map]
    unfold Responder.stream
    refine hands_claim fun v => hands_arg (encodeHeaders_eq headers v) fun a ha => hands_arg rfl fun b hb => ?_
    exact hands_arg_last rfl fun d hd => hands_checked (List.cons_ne_nil _ _) (.cons hd .nil)

end Responder

/-! ## Functions on messages -/

section Message

/-- The calls on a borrowed request and on a response that is verified against an explicit key. -/
inductive MessageCall where
  | getHeader (msg : Nat) (name : Bytes)
  | isFresh (req : Nat) (etag : Bytes)
  | range (req total : Nat) (etag : Option Bytes) (room : Nat)
  | responseVerify (resp : Nat) (pubkey path : Bytes) (now : Nat)
deriving Repr, DecidableEq

inductive RangeKind where
  | full | unsatisfiable | ranges
deriving Repr, DecidableEq

def maxRanges : Nat := 16

def pubkeySize : Nat := 32

/-- `Request.header`. -/
def header (msg : Nat) (name : Arg ε Bytes) : Py ε MessageCall Unit (Option Bytes) := do
  let name ← arg name
  let ret ← call (.getHeader msg name)
  return if ret.rc = 0 then none else some ret.data

/-- `Request.is_fresh`. -/
def isFresh (msg : Nat) (etag : Arg ε Bytes) : Py ε MessageCall Unit Bool := do
  let etag ← arg etag
  let ret ← call (.isFresh msg etag)
  return ret.rc != 0

/-- `etag.encode("utf-8") if etag is not None else NULL`. -/
def orNull : Option (Arg ε Bytes) → Arg ε (Option Bytes)
  | none => .ok none
  | some a => a.map some

/-- `Request.range`, with the ranges as the library wrote them. -/
def range (msg : Nat) (totalLen : Arg ε Nat) (etag : Option (Arg ε Bytes)) :
    Py ε MessageCall Unit (RangeKind × Bytes) := do
  let etag ← arg (orNull etag)
  let total ← arg totalLen
  checkedCall (.range msg total etag maxRanges) fun ret =>
    if ret.rc = 0 then (.ranges, ret.data)
    else if ret.rc = 2 then (.unsatisfiable, [])
    else (.full, [])

/-- `verify_response`. -/
def verifyResponse (response : Server.Response) (pubkey : Bytes) (path : Arg ε Bytes) (nowSecs : Arg ε Nat) :
    Py ε MessageCall Unit Unit :=
  if pubkey.length ≠ pubkeySize then
    throw (.valueError ("pubkey must be " ++ toString pubkeySize ++ " bytes, got " ++ toString pubkey.length))
  else if response.closed then throw (.valueError Server.responseClosed)
  else do
    let path ← arg path
    let now ← arg nowSecs
    checkedCall (.responseVerify response.msg pubkey path now) fun _ => ()

/-- The `const char *` parameters. -/
def messageTexts : MessageCall → List Bytes
  | .getHeader _ name => [name]
  | .isFresh _ etag => [etag]
  | .range _ _ etag _ => etag.toList
  | .responseVerify _ _ path _ => [path]

theorem fails_orNull {a : Arg ε Bytes} : Fails (orNull (some a)) ↔ Fails a := by
  cases a with
  | error e => exact iff_of_true ⟨e, rfl⟩ ⟨e, rfl⟩
  | ok b => exact iff_of_false (not_fails_ok _) (not_fails_ok _)

/-- A function that is given the strings, with what refuses it. -/
inductive OnMessage (unicodeError : ε) : List Str → Prop → Py ε MessageCall Unit Unit → Prop where
  | header (msg name) :
      OnMessage unicodeError [name] (Fails (encode unicodeError name))
        (do let _ ← header msg (encode unicodeError name))
  | isFresh (msg etag) :
      OnMessage unicodeError [etag] (Fails (encode unicodeError etag))
        (do let _ ← isFresh msg (encode unicodeError etag))
  | range (msg totalLen etag) :
      OnMessage unicodeError [etag] (Fails (encode unicodeError etag) ∨ Fails totalLen)
        (do let _ ← range msg totalLen (some (encode unicodeError etag)))
  | verifyResponse (response pubkey path nowSecs) :
      OnMessage unicodeError [path]
        (pubkey.length ≠ pubkeySize ∨ response.closed = true ∨ Fails (encode unicodeError path) ∨ Fails nowSecs)
        (verifyResponse response pubkey (encode unicodeError path) nowSecs)

theorem OnMessage.hands {refused : Prop} {x : Py ε MessageCall Unit Unit} (h : OnMessage unicodeError ts refused x)
    (w : World MessageCall Ret Unit) : Hands unicodeError messageTexts ts refused (callsOf x w) := by
  cases h with
  | header msg name =>
    rw [callsOf_bind_pure]
    exact hands_arg_last rfl fun b hb => hands_called rfl (List.cons_ne_nil _ _) (.cons hb .nil)
  | isFresh msg etag =>
    rw [callsOf_bind_pure]
    exact hands_arg_last rfl fun b hb => hands_called rfl (List.cons_ne_nil _ _) (.cons hb .nil)
  | range msg totalLen etag =>
    rw [callsOf_bind_pure, ← fails_orNull]
    refine hands_arg rfl fun b hb => hands_arg_last rfl fun d hd => ?_
    cases ha : encode unicodeError etag with
    | error e => rw [ha] at hb; cases hb
    | ok a =>
      rw [ha] at hb
      cases hb
      exact hands_called (after_checkedCall _ _ w) (List.cons_ne_nil _ _) (.cons ha .nil)
  | verifyResponse response pubkey path nowSecs =>
    unfold Text.verifyResponse
    refine hands_or (fun hkey => ?_) fun hkey => ?_
    · rw [if_pos hkey]
      exact callsOf_error (e := .valueError _) (by rfl)
    rw [if_neg hkey]
    refine hands_or (fun hc => ?_) fun hc => ?_
    · rw [if_pos hc]
      exact callsOf_error (e := .valueError _) (by rfl)
    rw [if_neg hc]
    refine hands_arg rfl fun b hb => hands_arg_last rfl fun d hd => ?_
    exact hands_called (after_checkedCall _ _ w) (List.cons_ne_nil _ _) (.cons hb .nil)

theorem arg_ok_of_encode {s : Str} {b : Bytes} (h : (encode unicodeError s).mapError PyExc.raised = .ok b) :
    encode unicodeError s = .ok b := by
  cases hs : encode unicodeError s with
  | error e => rw [hs] at h; cases h
  | ok a => rw [hs] at h; cases h; rfl

/-- The one call has the encoded strings where its function reads text. -/
theorem OnMessage.encoded {refused : Prop} {x : Py ε MessageCall Unit Unit} (h : OnMessage unicodeError ts refused x)
    (w : World MessageCall Ret Unit) : OneCall (fun c => Encoded unicodeError ts (messageTexts c)) x w := by
  cases h with
  | header msg name =>
    unfold Text.header
    simp only [bind_assoc]
    exact oneCall_raise fun b hb => OneCall.of_after rfl (.cons (arg_ok_of_encode hb) .nil)
  | isFresh msg etag =>
    unfold Text.isFresh
    simp only [bind_assoc]
    exact oneCall_raise fun b hb => OneCall.of_after rfl (.cons (arg_ok_of_encode hb) .nil)
  | range msg totalLen etag =>
    unfold Text.range
    simp only [bind_assoc]
    cases ha : encode unicodeError etag with
    | error e => exact OneCall.bind_of_error (arg_error e w)
    | ok a =>
      refine OneCall.bind_of_ok (arg_ok (some a) w) (oneCall_arg fun total => ?_)
      exact OneCall.of_after ((after_bind_pure _ _ w).trans (after_checkedCall _ _ w)) (.cons ha .nil)
  | verifyResponse response pubkey path nowSecs =>
    unfold Text.verifyResponse
    split
    · exact OneCall.throw _
    split
    · exact OneCall.throw _
    exact oneCall_raise fun b hb => oneCall_arg fun now => oneCall_checkedCall (.cons (arg_ok_of_encode hb) .nil)

end Message

/-! ## Text across the boundary -/

/-- Two calls carry the same text if and only if their strings agree up to their first NULs. -/
theorem OnHandle.same_iff {ts' : List Str} {m m' : Native.Method ε} (h : OnHandle unicodeError ts m)
    (h' : OnHandle unicodeError ts' m') {w w' : Native.Wrapper} {v v' : Native.Heap} {c c' : Native.Call × Ret}
    (hc : c ∈ callsOf (m.run w) v) (hc' : c' ∈ callsOf (m'.run w') v') :
    (handleTexts c.1).map cRead = (handleTexts c'.1).map cRead ↔ ts.map (upTo nul) = ts'.map (upTo nul) :=
  (h.encoded_call hc).same_iff (h'.encoded_call hc')

theorem OnMessage.encoded_call {refused : Prop} {x : Py ε MessageCall Unit Unit}
    (h : OnMessage unicodeError ts refused x)
    {w : World MessageCall Ret Unit} {c : MessageCall × Ret} (hc : c ∈ callsOf x w) :
    Encoded unicodeError ts (messageTexts c.1) := (h.encoded w).mem hc

/-- Headers and strings are rejected or read back in full if and only if the call is refused or none of
them has a NUL, and arguments reach the library as the same text if and only if they agree up to their
first NULs. -/
theorem text_kept (unicodeError : ε) :
    (∀ (headers : Option (List (Str × Str))) (w : Native.Heap),
      ((∃ e, (encodeHeaders (headersArg unicodeError headers) : Native.Prog ε _) w = .error e w) ∨
        ∃ array, (encodeHeaders (headersArg unicodeError headers) : Native.Prog ε _) w = .ok array w ∧
          cHeaders array = (headers.getD []).map fun p => (some p.1, some p.2)) ↔
      (∃ p ∈ headers.getD [], Lone p) ∨ ∀ p ∈ headers.getD [], nul ∉ p.1 ∧ nul ∉ p.2) ∧
    (∀ ts m, OnHandle unicodeError ts m → ∀ w v,
      (Kept handleTexts ts (callsOf (m.run w) v) ↔ ¬ m.Passes w v ∨ ∀ s ∈ ts, nul ∉ s)) ∧
    (∀ (r : Server.Responder) (w : World Server.Call Ret Server.Flags) texts ts refused op,
      OnResponder unicodeError (w.objs.used r.id = true) texts ts refused op →
      (Kept texts ts (callsOf (op.run r) w) ↔ refused ∨ ∀ s ∈ ts, nul ∉ s)) ∧
    (∀ ts refused x, OnMessage unicodeError ts refused x → ∀ w,
      (Kept messageTexts ts (callsOf x w) ↔ refused ∨ ∀ s ∈ ts, nul ∉ s)) ∧
    (∀ ts ts' m m', OnHandle unicodeError ts m → OnHandle unicodeError ts' m' → ∀ w v w' v',
      ∀ c ∈ callsOf (m.run w) v, ∀ c' ∈ callsOf (m'.run w') v',
      ((handleTexts c.1).map cRead = (handleTexts c'.1).map cRead ↔ ts.map (upTo nul) = ts'.map (upTo nul))) ∧
    (∀ ts ts' refused m x, OnHandle unicodeError ts m → OnMessage unicodeError ts' refused x → ∀ w v w',
      ∀ c ∈ callsOf (m.run w) v, ∀ c' ∈ callsOf x w',
      ((handleTexts c.1).map cRead = (messageTexts c'.1).map cRead ↔ ts.map (upTo nul) = ts'.map (upTo nul))) ∧
    ∀ ts ts' refused refused' x x',
      OnMessage unicodeError ts refused x → OnMessage unicodeError ts' refused' x' → ∀ w w',
      ∀ c ∈ callsOf x w, ∀ c' ∈ callsOf x' w',
      ((messageTexts c.1).map cRead = (messageTexts c'.1).map cRead ↔ ts.map (upTo nul) = ts'.map (upTo nul)) := by
  refine ⟨fun headers w => encodeHeaders_kept_iff headers w, fun ts m h w v => (h.hands w v).kept_iff, ?_, ?_, ?_, ?_,
    ?_⟩
  · intro r w texts ts refused op h
    exact h.hands.kept_iff
  · intro ts refused x h w
    exact (h.hands w).kept_iff
  · intro ts ts' m m' h h' w v w' v' c hc c' hc'
    exact h.same_iff h' hc hc'
  · intro ts ts' refused m x h h' w v w' c hc c' hc'
    exact (h.encoded_call hc).same_iff (h'.encoded_call hc')
  · intro ts ts' refused refused' x x' h h' w w' c hc c' hc'
    exact (h.encoded_call hc).same_iff (h'.encoded_call hc')

/-! ## A path with a NUL -/

/-- An open cache, and storing an open response under `read` and a path in it. -/
def cache : Native.Wrapper := ⟨0, 7⟩

def opened : Native.Heap := { objs := fun _ => {}, ret := fun _ => ⟨0, 0, []⟩, log := [] }

def putSigned (path : List Char) : Native.Method Unit :=
  Native.Cache.putSigned (encode () (ofChars ['r', 'e', 'a', 'd'])) (encode () (ofChars path))
    (.ok (List.replicate 32 0))
    (.ok 0) (.ok ⟨5, false⟩)

theorem putSigned_passes {path : List Char} {b : Bytes} (h : encode () (ofChars path) = .ok b) :
    (putSigned path).Passes cache opened := by
  refine ⟨fun _ => rfl, [.bytes [114, 101, 97, 100], .bytes b, .ptr 5, .bytes (List.replicate 32 0), .int 0], ?_⟩
  unfold putSigned
  rw [h]
  rfl

theorem putSigned_onHandle (path : List Char) :
    OnHandle () [ofChars ['r', 'e', 'a', 'd'], ofChars path] (putSigned path) := .putSigned _ _ _ _ _

theorem text_kept_plain :
    Kept handleTexts [ofChars ['r', 'e', 'a', 'd'], ofChars ['/', 'a']]
      (callsOf ((putSigned ['/', 'a']).run cache) opened) :=
  ((text_kept ()).2.1 _ _ (putSigned_onHandle _) cache opened).2 (.inr (by decide))

/-- A path with a NUL reaches the library cut short, and so as the same text as another; a header value
is cut as well. -/
theorem text_cut :
    ¬ Kept handleTexts [ofChars ['r', 'e', 'a', 'd'], ofChars ['/', 'a', '\x00', 'b']]
      (callsOf ((putSigned ['/', 'a', '\x00', 'b']).run cache) opened) ∧
    (∃ c ∈ callsOf ((putSigned ['/', 'a', '\x00', 'b']).run cache) opened,
      ∃ c' ∈ callsOf ((putSigned ['/', 'a', '\x00', 'c']).run cache) opened,
      (handleTexts c.1).map cRead = (handleTexts c'.1).map cRead) ∧
    ∃ array, (encodeHeaders (headersArg () (some [(ofChars ['a'], ofChars ['b', '\x00'])])) : Native.Prog Unit _) opened =
        .ok array opened ∧
      cHeaders array ≠ [(some (ofChars ['a']), some (ofChars ['b', '\x00']))] := by
  have hcalls : ∀ (path : List Char) {b : Bytes}, encode () (ofChars path) = .ok b →
      ∃ c, c ∈ callsOf ((putSigned path).run cache) opened := by
    intro path b hb
    rcases (putSigned path).run_calls cache opened with ⟨hn, -⟩ | ⟨-, vals, -, hc⟩
    · exact absurd (putSigned_passes hb) hn
    · exact ⟨_, hc ▸ List.mem_cons_self⟩
  refine ⟨fun hk => ?_, ?_, ?_⟩
  · rcases ((putSigned_onHandle _).hands cache opened).kept_iff.1 hk with hn | hn
    · exact hn (putSigned_passes rfl)
    · exact hn _ (List.mem_cons_of_mem _ List.mem_cons_self) (by decide)
  · obtain ⟨c, hc⟩ := hcalls ['/', 'a', '\x00', 'b'] rfl
    obtain ⟨c', hc'⟩ := hcalls ['/', 'a', '\x00', 'c'] rfl
    exact ⟨c, hc, c', hc', ((putSigned_onHandle _).same_iff (putSigned_onHandle _) hc hc').2 (by decide)⟩
  · refine ⟨some [([97], [98, 0])], rfl, fun h => ?_⟩
    have hvalue : encode () (ofChars ['b', '\x00']) = .ok [98, 0] := rfl
    have hread := congrArg (List.map Prod.snd) h
    rw [show cHeaders (some [([97], [98, 0])]) = [(cRead [97], cRead [98, 0])] from rfl, cRead_encode hvalue] at hread
    exact absurd hread (by decide)

end Nwep.Text
