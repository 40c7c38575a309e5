/-
One answer per request. A terminal that returned its `Reply` leaves the responder claimed, nothing
unclaims it, and a terminal that claims before anything else then raises without a library call.

`moved` and `rate_limited` write their header before the claim, the sub-routers hand the buffer to
the library before it, and `partial` looks at its ranges before it.
-/
import Nwep.Server.Responder

namespace Nwep.Server

open Lib

variable {ε α : Type} {r : Responder} {w v : World Call Ret Flags}

/-! ## The claim -/

theorem claim_used (h : w.objs.used r.id = true) :
    (r.claim : Prog ε Unit) w = .error (.runtimeError answeredTwice) w := by
  unfold Responder.claim
  rw [get_bind, if_pos h]; rfl

theorem claim_free (h : w.objs.used r.id = false) :
    (r.claim : Prog ε Unit) w = .ok () { w with objs := { used := Function.update w.objs.used r.id true } } := by
  unfold Responder.claim
  rw [get_bind, if_neg (by rw [h]; decide)]; rfl

/-- Behind a claim nothing runs once the responder is used. -/
theorem claim_bind_used (h : w.objs.used r.id = true) (f : Unit → Prog ε α) :
    (r.claim >>= f) w = .error (.runtimeError answeredTwice) w := bind_of_error (claim_used h) f

/-! ## What every operation moves along -/

section Along

variable {R : World Call Ret Flags → World Call Ret Flags → Prop} [Std.Refl R] [IsTrans _ R]

theorem along_rawMessage (origin : Response) : Along R (origin.rawMessage : Prog ε Nat) := by
  unfold Response.rawMessage
  by_cases h : origin.closed = true
  · rw [if_pos h]; exact (Along.throw _).bind fun _ => Along.pure _
  · rw [if_neg h]; exact Along.pure _

section

variable (hcall : ∀ c, Along R (call c : Prog ε Ret))

include hcall

theorem along_checked (c : Call) : Along R (checked c : Prog ε Ret) :=
  (hcall c).bind fun ret => (along_check ret.rc).bind fun _ => Along.pure ret

theorem along_encode (status : StatusArg ε) : Along R status.encode := by
  cases status with
  | member s => exact (hcall _).bind fun _ => Along.pure _
  | text token => exact along_arg token

theorem along_header (name value : Arg ε Bytes) : Along R (r.header name value) :=
  (along_arg name).bind fun _ => (along_arg value).bind fun _ => (along_checked hcall _).bind fun _ => Along.pure _

theorem along_capture : Along R (r.capture : Prog ε Bytes) := by
  refine Along.get.bind fun w => ?_
  by_cases h : w.objs.used r.id = true
  · simp only [h]
    exact (along_checked hcall _).bind fun ret => (along_checked hcall _).bind fun _ => Along.pure _
  · simp only [h]
    exact (Along.throw _).bind fun _ =>
      (along_checked hcall _).bind fun ret => (along_checked hcall _).bind fun _ => Along.pure _

end

end Along

/-! ## Terminals that claim first -/

/-- The terminal claims the responder before it does anything else. -/
def Terminal.ClaimsFirst : Terminal ε → Prop
  | .moved _ | .rateLimited _ | .logDispatch .. | .anchorDispatch .. => False
  | .partialContent _ ranges _ => ranges ≠ []
  | _ => True

/-- Behind the claim of `r` the terminal runs `k`, which never touches a flag itself. -/
def Claims (r : Responder) (x : Prog ε (Option Reply)) : Prop :=
  ∃ k : Unit → Prog ε Reply, x = some <$> (r.claim >>= k) ∧
    ∀ {R : World Call Ret Flags → World Call Ret Flags → Prop} [Std.Refl R] [IsTrans _ R],
      (∀ c, Along R (call c : Prog ε Ret)) → ∀ u, Along R (k u)

theorem claims_status (status : StatusArg ε) (body : Arg ε Bytes) : Claims r (some <$> r.status status body) :=
  ⟨_, rfl, fun hcall _ => (along_encode hcall status).bind fun _ => (along_arg body).bind fun _ =>
    (along_checked hcall _).bind fun _ => Along.pure _⟩

theorem claims_partial {ranges : List (Arg ε (Nat × Nat))} (h : ranges ≠ []) (body contentType : Arg ε Bytes) :
    Claims r (some <$> r.partialContent body ranges contentType) := by
  unfold Responder.partialContent
  rw [if_neg (by rw [List.isEmpty_iff]; exact h)]
  exact ⟨_, rfl, fun hcall _ => (Along.mapM along_arg ranges).bind fun _ => (along_arg body).bind fun _ =>
    (along_arg contentType).bind fun _ => (along_checked hcall _).bind fun _ => Along.pure _⟩

theorem Terminal.claims {t : Terminal ε} (h : t.ClaimsFirst) : Claims r (t.run r) := by
  cases t with
  | ok body | blit body | notModified body =>
    exact ⟨_, rfl, fun hcall _ => (along_arg body).bind fun _ => (along_checked hcall _).bind fun _ => Along.pure _⟩
  | status status body => exact claims_status status body
  | created body | accepted body | badRequest body | unauthorized body | forbidden body | notFound body
  | conflict body | error body => exact claims_status _ body
  | noContent | notAllowed | gone | tooLarge | preconditionFailed | unavailable | timeout | notImplemented =>
    exact claims_status _ _
  | partialContent body ranges contentType => exact claims_partial h body contentType
  | rangeNotSatisfiable total =>
    exact ⟨_, rfl, fun hcall _ => (along_arg total).bind fun _ => (along_checked hcall _).bind fun _ => Along.pure _⟩
  | relay origin =>
    exact ⟨_, rfl, fun hcall _ => (along_arg origin).bind fun o => (along_rawMessage o).bind fun _ =>
      (along_checked hcall _).bind fun _ => Along.pure _⟩
  | defer => exact ⟨_, rfl, fun _ _ => Along.pure _⟩
  | stream path status headers =>
    exact ⟨_, rfl, fun hcall _ => (along_encodeHeaders headers).bind fun _ => (along_arg path).bind fun _ =>
      (along_encode hcall status).bind fun _ => (along_checked hcall _).bind fun _ => Along.pure _⟩
  | moved | rateLimited | logDispatch | anchorDispatch => exact h.elim

/-- On a used responder such a terminal raises at once. -/
theorem Claims.used {x : Prog ε (Option Reply)} (h : Claims r x) (hw : w.objs.used r.id = true) :
    x w = .error (.runtimeError answeredTwice) w := by
  obtain ⟨k, rfl, -⟩ := h
  exact map_of_error (claim_bind_used hw k) some

/-! ## Every operation, along any relation that calls and claims respect -/

section Along

variable {R : World Call Ret Flags → World Call Ret Flags → Prop} [Std.Refl R] [IsTrans _ R]

variable (hcall : ∀ c, Along R (call c : Prog ε Ret)) (hclaim : ∀ r : Responder, Along R (r.claim : Prog ε Unit))

include hcall hclaim

theorem Claims.along {x : Prog ε (Option Reply)} (h : Claims r x) : Along R x := by
  obtain ⟨k, rfl, hk⟩ := h
  exact ((hclaim r).bind (hk hcall)).map some

omit hcall in
theorem along_routed (rc : Int) : Along R (routed r rc : Prog ε (Option Reply)) := by
  unfold routed
  by_cases h0 : rc = 0
  · rw [if_pos h0]; exact (hclaim r).bind fun _ => Along.pure _
  by_cases h1 : rc = 1
  · rw [if_neg h0, if_pos h1]; exact Along.pure _
  · rw [if_neg h0, if_neg h1]; exact (along_check rc).bind fun _ => Along.pure _

theorem along_headed (name value : Arg ε Bytes) (status : StatusArg ε) :
    Along R (some <$> (r.header name value >>= fun _ => r.status status Responder.noBody)) :=
  Along.map ((along_header hcall name value).bind fun _ =>
    (hclaim r).bind fun _ => (along_encode hcall status).bind fun _ => (along_arg _).bind fun _ =>
      (along_checked hcall _).bind fun _ => Along.pure _) some

theorem along_logDispatch (l : LogServer) (request : Request) (now : Arg ε Nat) :
    Along R (l.dispatch request r now : Prog ε (Option Reply)) :=
  (along_arg now).bind fun _ => (hcall _).bind fun ret => along_routed hclaim ret.rc

theorem along_anchorDispatch (a : AnchorNode) (request : Request) (ids : List (Arg ε Bytes)) (now : Arg ε Nat) :
    Along R (a.dispatch request r ids now : Prog ε (Option Reply)) :=
  (Along.mapM along_arg ids).bind fun _ =>
    ((along_checked hcall _).bind fun _ => Along.pure _).bind fun _ => (along_arg now).bind fun _ =>
      (hcall _).bind fun ret => along_routed hclaim ret.rc

theorem Terminal.along (t : Terminal ε) : Along R (t.run r) := by
  by_cases h : t.ClaimsFirst
  · exact (t.claims h).along hcall hclaim
  cases t with
  | moved location => exact along_headed hcall hclaim _ _ _
  | rateLimited retryAfter => exact along_headed hcall hclaim _ _ _
  | logDispatch l request now => exact along_logDispatch hcall hclaim l request now
  | anchorDispatch a request ids now => exact along_anchorDispatch hcall hclaim a request ids now
  | partialContent body ranges contentType =>
    have hr : ranges = [] := by by_contra hr; exact h hr
    rw [hr]; exact (Along.throw _).map some
  | _ => exact absurd trivial h

theorem Op.along (o : Op ε) : Along R (o.run r) := by
  cases o with
  | header name value => exact (along_header hcall name value).bind fun _ => Along.pure _
  | terminal t => exact t.along hcall hclaim
  | capture => exact (along_capture hcall).bind fun _ => Along.pure _

end Along

/-! ## A claimed responder stays claimed -/

/-- No flag set before is cleared. -/
def Keeps (w v : World Call Ret Flags) : Prop := ∀ i, w.objs.used i = true → v.objs.used i = true

instance : Std.Refl Keeps where refl _ _ h := h

instance : IsTrans _ Keeps where trans _ _ _ h h' i hi := h' i (h i hi)

theorem keeps_call (c : Call) : Along Keeps (call c : Prog ε Ret) := fun _ _ h => h

theorem keeps_claim (r : Responder) : Along Keeps (r.claim : Prog ε Unit) := by
  intro w i hi
  by_cases h : w.objs.used r.id = true
  · rw [after_error (claim_used h)]; exact hi
  · rw [Bool.not_eq_true] at h
    rw [after_ok (claim_free h)]
    show Function.update w.objs.used r.id true i = true
    by_cases hir : i = r.id
    · rw [hir, Function.update_self]
    · rw [Function.update_of_ne hir]; exact hi

theorem used_of_claim {u : Unit} (h : (r.claim : Prog ε Unit) w = .ok u v) : v.objs.used r.id = true := by
  by_cases hw : w.objs.used r.id = true
  · rw [claim_used hw] at h; cases h
  · rw [Bool.not_eq_true] at hw
    rw [claim_free hw] at h
    cases h
    exact Function.update_self ..

theorem Claims.used_of_reply {x : Prog ε (Option Reply)} (h : Claims r x) {reply : Option Reply}
    (hx : x w = .ok reply v) : v.objs.used r.id = true := by
  obtain ⟨k, rfl, hk⟩ := h
  obtain ⟨a, ha, -⟩ := map_ok hx
  obtain ⟨u, w', hc, hk'⟩ := bind_ok ha
  have hkeep := hk (R := Keeps) keeps_call u w'
  rw [after_ok hk'] at hkeep
  exact hkeep r.id (used_of_claim hc)

theorem used_of_routed {rc : Int} {reply : Reply} (h : (routed r rc : Prog ε _) w = .ok (some reply) v) :
    v.objs.used r.id = true := by
  unfold routed at h
  by_cases h0 : rc = 0
  · rw [if_pos h0] at h
    obtain ⟨u, w', hc, hk⟩ := bind_ok h
    cases hk; exact used_of_claim hc
  by_cases h1 : rc = 1
  · rw [if_neg h0, if_pos h1] at h; cases h
  · rw [if_neg h0, if_neg h1] at h
    obtain ⟨_, w', -, hk⟩ := bind_ok h
    cases hk

/-- A terminal that returned its `Reply` leaves the responder claimed. -/
theorem Terminal.used_of_reply {t : Terminal ε} {reply : Reply} (h : t.run r w = .ok (some reply) v) :
    v.objs.used r.id = true := by
  by_cases hf : t.ClaimsFirst
  · exact (t.claims hf).used_of_reply h
  cases t with
  | moved | rateLimited =>
    obtain ⟨a, ha, -⟩ := map_ok h
    obtain ⟨_, w', -, hs⟩ := bind_ok ha
    exact (claims_status _ _).used_of_reply (x := some <$> r.status _ _) (map_of_ok hs some)
  | logDispatch l request now =>
    obtain ⟨_, _, -, h⟩ := bind_ok h
    obtain ⟨_, _, -, h⟩ := bind_ok h
    exact used_of_routed h
  | anchorDispatch a request ids now =>
    obtain ⟨_, _, -, h⟩ := bind_ok h
    obtain ⟨_, _, -, h⟩ := bind_ok h
    obtain ⟨_, _, -, h⟩ := bind_ok h
    obtain ⟨_, _, -, h⟩ := bind_ok h
    exact used_of_routed h
  | partialContent body ranges contentType =>
    have hr : ranges = [] := by by_contra hr; exact hf hr
    subst hr; cases h
  | _ => exact absurd trivial hf

/-- Operations one after another, each on its responder, whatever each returns or raises. -/
def runOps (ops : List (Responder × Op ε)) (w : World Call Ret Flags) : World Call Ret Flags :=
  ops.foldl (fun w o => after (o.2.run o.1) w) w

theorem used_runOps : ∀ (ops : List (Responder × Op ε)) {w : World Call Ret Flags} {i : Nat},
    w.objs.used i = true → (runOps ops w).objs.used i = true
  | [], _, _, h => h
  | o :: ops, w, i, h => used_runOps ops (o.2.along keeps_call keeps_claim w i h)

/-! ## At most one answer -/

/-- From `w` the program raises `RuntimeError`, and no call it made takes the responder's buffer or
stream or acts on a log or an anchor. -/
def Refuses (r : Responder) (w : World Call Ret Flags) (x : EStateM.Result (PyExc ε) (World Call Ret Flags) α) : Prop :=
  ∃ message v, x = .error (.runtimeError message) v ∧
    Calls (fun c => c.1.takes r = false ∧ c.1.routes = false) w v

theorem refuses_claims {t : Terminal ε} (h : t.ClaimsFirst) (hw : w.objs.used r.id = true) :
    Refuses r w (t.run r w) :=
  ⟨answeredTwice, w, (t.claims h).used hw, Std.Refl.refl w⟩

theorem not_refuses_ok {a : α} : ¬ Refuses r w (.ok a v : EStateM.Result (PyExc ε) _ α) := by
  rintro ⟨_, _, h, -⟩; cases h

theorem not_refuses_error {e : PyExc ε} (he : ∀ message, e ≠ .runtimeError message) :
    ¬ Refuses r w (.error e v : EStateM.Result (PyExc ε) _ α) := by
  rintro ⟨message, _, h, -⟩
  cases h; exact he message rfl

/-- A program that raises after a call with the buffer does not refuse. -/
theorem not_refuses_called {e : PyExc ε} {cs : List (Call × Ret)} {c : Call × Ret} (hv : v.log = w.log ++ cs)
    (hm : c ∈ cs) (hc : c.1.takes r = true) : ¬ Refuses r w (.error e v : EStateM.Result (PyExc ε) _ α) := by
  rintro ⟨_, _, h, ds, hds, hP⟩
  cases h
  rw [hv] at hds
  have := (hP c (List.append_cancel_left hds ▸ hm)).1
  rw [hc] at this; cases this

theorem checked_cases (c : Call) (w : World Call Ret Flags) :
    (∃ ret, (checked c : Prog ε Ret) w = .ok ret (w.called c)) ∨
    ∃ code, (checked c : Prog ε Ret) w = .error (.nwep code) (w.called c) := by
  unfold checked
  rw [bind_of_ok (call_ok c w)]
  rcases check_cases (ε := ε) (w.ret w.log.length).rc (w.called c) with ⟨-, h⟩ | ⟨-, h⟩
  · rw [bind_of_ok h]; exact .inl ⟨_, rfl⟩
  · rw [bind_of_error h]; exact .inr ⟨_, rfl⟩

/-- A header written before the claim: the call has been made by the time the claim raises. -/
theorem not_refuses_headed (hw : w.objs.used r.id = true) (name : Bytes) (value : Arg ε Bytes) (status : StatusArg ε)
    (body : Arg ε Bytes) :
    ¬ Refuses r w ((some <$> (r.header (.ok name) value >>= fun _ => r.status status body)) w) := by
  cases value with
  | error e => exact not_refuses_error (by rintro _ ⟨⟩)
  | ok value =>
    have hrun : (r.header (.ok name) (.ok value) : Prog ε Unit) w =
        (checked (.responseHeader r.buf name value) >>= fun _ => pure ()) w := rfl
    rcases checked_cases (ε := ε) (.responseHeader r.buf name value) w with ⟨ret, h⟩ | ⟨code, h⟩
    · rw [bind_of_ok h] at hrun
      have hs : (r.header (.ok name) (.ok value) >>= fun _ => r.status status body) w =
          .error (.runtimeError answeredTwice) (w.called (.responseHeader r.buf name value)) := by
        rw [bind_of_ok hrun]; exact claim_bind_used (w := w.called _) hw _
      rw [map_of_error hs]
      apply not_refuses_called (w.called_log _) (List.mem_singleton_self _)
      exact beq_self_eq_true r.buf
    · rw [bind_of_error h] at hrun
      rw [map_of_error (bind_of_error hrun _)]
      exact not_refuses_error (by rintro _ ⟨⟩)

/-- A sub-router that reached its dispatch call has handed the buffer over. -/
theorem not_refuses_routed {cs : List (Call × Ret)} {c : Call × Ret} (hv : v.log = w.log ++ cs)
    (hm : c ∈ cs) (hc : c.1.takes r = true) (hu : v.objs.used r.id = true) (rc : Int) :
    ¬ Refuses r w ((routed r rc : Prog ε _) v) := by
  unfold routed
  by_cases h0 : rc = 0
  · rw [if_pos h0, claim_bind_used hu]
    exact not_refuses_called hv hm hc
  by_cases h1 : rc = 1
  · rw [if_neg h0, if_pos h1]; exact not_refuses_ok
  rw [if_neg h0, if_neg h1]
  rcases check_cases (ε := ε) rc v with ⟨-, h⟩ | ⟨-, h⟩
  · rw [bind_of_ok h]; exact not_refuses_ok
  · rw [bind_of_error h]; exact not_refuses_error (by rintro _ ⟨⟩)

theorem not_refuses_logDispatch (hw : w.objs.used r.id = true) (l : LogServer) (request : Request) (now : Arg ε Nat) :
    ¬ Refuses r w ((l.dispatch request r now : Prog ε _) w) := by
  unfold LogServer.dispatch
  cases now with
  | error e => rw [bind_of_error (arg_error e w)]; exact not_refuses_error (by rintro _ ⟨⟩)
  | ok now =>
    rw [bind_of_ok (arg_ok now w), bind_of_ok (call_ok _ w)]
    apply not_refuses_routed (w.called_log _) (List.mem_singleton_self _) _ hw
    exact beq_self_eq_true r.buf

theorem not_refuses_anchorDispatch (hw : w.objs.used r.id = true) (a : AnchorNode) (request : Request)
    (ids : List (Arg ε Bytes)) (now : Arg ε Nat) : ¬ Refuses r w ((a.dispatch request r ids now : Prog ε _) w) := by
  unfold AnchorNode.dispatch
  rcases mapM_arg w ids with ⟨bs, h⟩ | ⟨e, h⟩
  · rw [bind_of_ok h]
    rcases checked_cases (ε := ε) (.serverGetPeerNodeid request.server request.conn) w with ⟨ret, hp⟩ | ⟨code, hp⟩
    · have hpeer : (request.peerNodeId : Prog ε Bytes) w = .ok ret.data (w.called _) := bind_of_ok hp _
      rw [bind_of_ok hpeer]
      cases now with
      | error e => rw [bind_of_error (arg_error e _)]; exact not_refuses_error (by rintro _ ⟨⟩)
      | ok now =>
        rw [bind_of_ok (arg_ok now _), bind_of_ok (call_ok _ _)]
        refine not_refuses_routed (List.append_assoc ..) (List.mem_append_right _ (List.mem_singleton_self _)) ?_ ?_ _
        · exact beq_self_eq_true r.buf
        · exact hw
    · have hpeer : (request.peerNodeId : Prog ε Bytes) w = .error (.nwep code) (w.called _) := bind_of_error hp _
      rw [bind_of_error hpeer]; exact not_refuses_error (by rintro _ ⟨⟩)
  · rw [bind_of_error h]; exact not_refuses_error (by rintro _ ⟨⟩)

theorem not_refuses {t : Terminal ε} (h : ¬ t.ClaimsFirst) (hw : w.objs.used r.id = true) :
    ¬ Refuses r w (t.run r w) := by
  cases t with
  | moved | rateLimited => exact not_refuses_headed hw _ _ _ _
  | logDispatch l request now => exact not_refuses_logDispatch hw l request now
  | anchorDispatch a request ids now => exact not_refuses_anchorDispatch hw a request ids now
  | partialContent body ranges contentType =>
    have hr : ranges = [] := by by_contra hr; exact h hr
    subst hr
    exact not_refuses_error (e := .valueError Responder.noRanges) (by rintro _ ⟨⟩)
  | _ => exact absurd trivial h

/-- Once a terminal returned its `Reply`, and whatever operations on any responders followed, a later
terminal on that responder is refused if and only if it claims first. -/
theorem answered_once {t₁ : Terminal ε} {reply : Reply} (h : t₁.run r w = .ok (some reply) v)
    (ops : List (Responder × Op ε)) (t : Terminal ε) :
    Refuses r (runOps ops v) (t.run r (runOps ops v)) ↔ t.ClaimsFirst := by
  have hused : (runOps ops v).objs.used r.id = true := used_runOps ops (t₁.used_of_reply h)
  constructor
  · intro hr
    by_contra hf
    exact not_refuses hf hused hr
  · exact fun hf => refuses_claims hf hused

/-- A fresh responder and a library whose calls all return 0. -/
def fresh : World Call Ret Flags := ⟨⟨fun _ => false⟩, fun _ => ⟨0, 0, []⟩, []⟩

def responder : Responder := ⟨0, 100, 1, 2, 3⟩

theorem answered_once_ok : ∃ v,
    (Terminal.ok (.ok [104, 105]) : Terminal Unit).run responder fresh = .ok (some {}) v ∧
    Refuses responder v ((Terminal.notFound (.ok []) : Terminal Unit).run responder v) ∧
    ¬ Refuses responder v ((Terminal.moved (.ok [47]) : Terminal Unit).run responder v) := by
  have h : (Terminal.ok (.ok [104, 105]) : Terminal Unit).run responder fresh = .ok (some {}) _ := rfl
  exact ⟨_, h, (answered_once h [] _).2 trivial, fun hr => (answered_once h [] (.moved (.ok [47]))).1 hr⟩

/-- An answered request handed to the log server: the entry is written and the answer overwritten
before the claim raises. -/
theorem answer_overwritten : ∃ v message u,
    (Terminal.ok (.ok [104, 105]) : Terminal Unit).run responder fresh = .ok (some {}) v ∧
    (Terminal.logDispatch ⟨7⟩ ⟨8, 1, 2⟩ (.ok 0) : Terminal Unit).run responder v = .error (.runtimeError message) u ∧
    u.log = v.log ++ [(.logServerDispatch 7 2 8 100 0, ⟨0, 0, []⟩)] ∧
    ¬ Refuses responder v ((Terminal.logDispatch ⟨7⟩ ⟨8, 1, 2⟩ (.ok 0) : Terminal Unit).run responder v) := by
  refine ⟨_, _, _, rfl, rfl, rfl, ?_⟩
  exact not_refuses_logDispatch rfl _ _ _

end Nwep.Server
