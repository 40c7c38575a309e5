/-
What `capture` reads: the frame of a response that some operation on the responder has put into its
buffer. `capture` looks at `_used`, which a claim sets before anything is built, so a claim that comes
to nothing (a `defer`, a `stream`, or a terminal that raises behind it) is taken for a response.

`Writes` follows the library calls of a program, one rule for each way the program goes on.
-/
import Nwep.Server.Answered

namespace Nwep.Server

open Lib

variable {ε α β : Type} {r : Responder} {w v : World Call Ret Flags}

/-! ## Calls that build a response -/

/-- The call has put a response into the responder's buffer. -/
def Call.wrote (r : Responder) (ret : Ret) : Call → Bool
  | responseOk buf _ | responseStatus buf _ _ | responseNotModified buf _ | responsePartial buf _ _ _
  | responseRangeNotSatisfiable buf _ | responseRelay buf _ | responseBlit buf _ =>
    buf == r.buf && decide (0 ≤ ret.rc)
  | logServerDispatch _ _ _ buf _ | anchorNodeDispatch _ _ _ _ _ buf _ => buf == r.buf && ret.rc == 0
  | _ => false

/-- From `w` the program puts a response into the responder's buffer. -/
def Writes (r : Responder) (x : Prog ε α) (w : World Call Ret Flags) : Prop :=
  ∃ c ∈ callsOf x w, c.1.wrote r c.2 = true

/-- The program only adds to the calls made. -/
abbrev Grows (x : Prog ε α) : Prop := Along (Calls fun _ => True) x

theorem grows_call (c : Call) : Grows (call c : Prog ε Ret) := fun _ => ⟨[_], rfl, fun _ _ => trivial⟩

theorem calls_claim {P : Call × Ret → Prop} (r : Responder) : Along (Calls P) (r.claim : Prog ε Unit) := by
  refine Along.get.bind fun w => ?_
  by_cases h : w.objs.used r.id = true
  · rw [if_pos h]; exact Along.throw _
  · rw [if_neg h]; exact fun _ => ⟨[], (List.append_nil _).symm, by simp⟩

theorem callsOf_pure (a : α) (w : World Call Ret Flags) : callsOf (pure a : Prog ε α) w = [] := by
  unfold callsOf
  rw [after_pure, List.drop_length]

theorem not_writes_pure (a : α) : ¬ Writes r (pure a : Prog ε α) w := by
  unfold Writes
  rw [callsOf_pure]; simp

theorem not_writes_error {x : Prog ε α} {e : PyExc ε} (h : x w = .error e w) : ¬ Writes r x w := by
  unfold Writes
  rw [callsOf_error h]; simp

/-- `v` is `w` some calls later that build nothing, no flag moved. -/
def Quiet (r : Responder) (w v : World Call Ret Flags) : Prop :=
  v.objs = w.objs ∧ Calls (fun c => c.1.wrote r c.2 = false) w v

instance : Std.Refl (Quiet r) where refl w := ⟨rfl, Std.Refl.refl w⟩

instance : IsTrans _ (Quiet r) where
  trans _ _ _ h h' := ⟨h'.1.trans h.1, IsTrans.trans _ _ _ h.2 h'.2⟩

theorem quiet_call {c : Call} (hc : ∀ ret, c.wrote r ret = false) : Along (Quiet r) (call c : Prog ε Ret) :=
  fun w => ⟨rfl, [(c, _)], rfl, fun d hd => by cases List.mem_singleton.1 hd; exact hc _⟩

theorem quiet_checked {c : Call} (hc : ∀ ret, c.wrote r ret = false) : Along (Quiet r) (checked c : Prog ε Ret) :=
  (quiet_call hc).bind fun ret => (along_check ret.rc).bind fun _ => Along.pure ret

/-- None of the program's calls builds a response. -/
theorem not_writes_quiet {x : Prog ε α} (h : Along (Calls fun c => c.1.wrote r c.2 = false) x) : ¬ Writes r x w := by
  rintro ⟨c, hc, hw⟩
  obtain ⟨cs, hcs, hq⟩ := h w
  unfold callsOf at hc
  rw [hcs, List.drop_left] at hc
  rw [hq c hc] at hw; cases hw

theorem writes_map (f : α → β) (x : Prog ε α) : Writes r (f <$> x) w ↔ Writes r x w := by
  unfold Writes
  rw [callsOf_map]

theorem callsOf_congr {x y : Prog ε α} (h : x w = y w) : callsOf x w = callsOf y w := by
  unfold callsOf after
  rw [h]

/-- A program that returned goes on with what it called already. -/
theorem callsOf_bind {x : Prog ε α} {f : α → Prog ε β} {a : α} {cs : List (Call × Ret)} (h : x w = .ok a v)
    (hl : v.log = w.log ++ cs) (hg : Grows (f a)) : callsOf (x >>= f) w = cs ++ callsOf (f a) v := by
  obtain ⟨ds, hds, -⟩ := hg v
  unfold callsOf
  rw [after_bind_ok h, hds, hl, List.drop_left, List.append_assoc, List.drop_left]

theorem writes_bind_ok {x : Prog ε α} {f : α → Prog ε β} {a : α} (h : x w = .ok a v) (hl : v.log = w.log) :
    Writes r (x >>= f) w ↔ Writes r (f a) v := by
  unfold Writes
  rw [callsOf_bind_ok h hl]

/-- A program that returned after one call, which built nothing. -/
theorem writes_bind_called {x : Prog ε α} {f : α → Prog ε β} {a : α} {c : Call} (h : x w = .ok a (w.called c))
    (hc : c.wrote r (w.ret w.log.length) = false) (hg : Grows (f a)) :
    Writes r (x >>= f) w ↔ Writes r (f a) (w.called c) := by
  unfold Writes
  rw [callsOf_bind h (World.called_log w c) hg]
  simp [hc]

theorem not_writes_bind_error {x : Prog ε α} {f : α → Prog ε β} {e : PyExc ε} (h : x w = .error e w) :
    ¬ Writes r (x >>= f) w := not_writes_error (bind_of_error h f)

theorem writes_call {c : Call} {f : Ret → Prog ε α} (hg : Grows (f (w.ret w.log.length))) :
    Writes r (call c >>= f) w ↔
      c.wrote r (w.ret w.log.length) = true ∨ Writes r (f (w.ret w.log.length)) (w.called c) := by
  unfold Writes
  rw [callsOf_bind (call_ok c w) (World.called_log w c) hg]
  simp

/-- A parameter that its conversion does not refuse. -/
def Converts (a : Arg ε α) : Prop := ∃ b, a = .ok b

theorem converts_ok (a : α) : Converts (.ok a : Arg ε α) := ⟨a, rfl⟩

theorem not_converts_error {e : ε} : ¬ Converts (.error e : Arg ε α) := by rintro ⟨b, ⟨⟩⟩

theorem writes_arg {a : Arg ε α} {f : α → Prog ε β} {P : Prop} (h : ∀ b, Writes r (f b) w ↔ P) :
    Writes r (arg a >>= f) w ↔ Converts a ∧ P := by
  cases a with
  | ok b =>
    rw [writes_bind_ok (arg_ok b w) rfl, h]
    exact (and_iff_right (converts_ok b)).symm
  | error e => exact iff_of_false (not_writes_bind_error (arg_error e w)) fun h => not_converts_error h.1

theorem mapM_converts (w : World Call Ret Flags) : ∀ l : List (Arg ε α),
    (∃ bs, (l.mapM arg : Prog ε (List α)) w = .ok bs w ∧ ∀ a ∈ l, Converts a) ∨
      ∃ e, (l.mapM arg : Prog ε (List α)) w = .error e w ∧ ¬ ∀ a ∈ l, Converts a
  | [] => .inl ⟨[], by rw [List.mapM_nil]; rfl, by simp⟩
  | .error e :: l => by
    refine .inr ⟨_, by rw [List.mapM_cons, bind_of_error (arg_error e w)], fun h => ?_⟩
    exact not_converts_error (h _ List.mem_cons_self)
  | .ok a :: l => by
    rw [List.mapM_cons, bind_of_ok (arg_ok a w)]
    rcases mapM_converts w l with ⟨bs, h, hl⟩ | ⟨e, h, hl⟩
    · rw [bind_of_ok h]
      exact .inl ⟨_, rfl, List.forall_mem_cons.2 ⟨converts_ok a, hl⟩⟩
    · rw [bind_of_error h]
      exact .inr ⟨_, rfl, fun hall => hl (List.forall_mem_cons.1 hall).2⟩

theorem writes_args {l : List (Arg ε α)} {f : List α → Prog ε β} {P : Prop} (h : ∀ bs, Writes r (f bs) w ↔ P) :
    Writes r (l.mapM arg >>= f) w ↔ (∀ a ∈ l, Converts a) ∧ P := by
  rcases mapM_converts w l with ⟨bs, hm, hl⟩ | ⟨e, hm, hl⟩
  · rw [writes_bind_ok hm rfl, h]
    exact (and_iff_right hl).symm
  · exact iff_of_false (not_writes_bind_error hm) fun hp => hl hp.1

theorem checked_ok (c : Call) (h : 0 ≤ (w.ret w.log.length).rc) :
    (checked c : Prog ε Ret) w = .ok (w.ret w.log.length) (w.called c) := checkedCall_ok c id h

theorem checked_error (c : Call) (h : ¬ 0 ≤ (w.ret w.log.length).rc) :
    ∃ code, (checked c : Prog ε Ret) w = .error (.nwep code) (w.called c) := by
  unfold checked
  rw [bind_of_ok (call_ok c w)]
  rcases check_cases (ε := ε) (w.ret w.log.length).rc (w.called c) with ⟨h0, -⟩ | ⟨-, hc⟩
  · exact absurd h0 h
  · rw [bind_of_error hc]; exact ⟨_, rfl⟩

/-- A checked call, and what follows when its code is no error. -/
theorem writes_checked {c : Call} {f : Ret → Prog ε α} (hg : ∀ ret, Grows (f ret)) :
    Writes r (checked c >>= f) w ↔ c.wrote r (w.ret w.log.length) = true ∨
      0 ≤ (w.ret w.log.length).rc ∧ Writes r (f (w.ret w.log.length)) (w.called c) := by
  by_cases h : 0 ≤ (w.ret w.log.length).rc
  · unfold Writes
    rw [callsOf_bind (checked_ok c h) (World.called_log w c) (hg _)]
    simp [h]
  · obtain ⟨code, hc⟩ := checked_error (ε := ε) c h
    unfold Writes
    rw [callsOf_called (after_error (bind_of_error hc f))]
    simp [h]

/-! ## What each terminal needs -/

/-- The code of the `n`-th library call from now on. -/
def code (w : World Call Ret Flags) (n : Nat) : Int := (w.ret (w.log.length + n)).rc

theorem code_called (c : Call) (n : Nat) : code (w.called c) n = code w (n + 1) := by
  unfold code
  rw [World.called_log, List.length_append]
  show (w.ret (w.log.length + 1 + n)).rc = _
  rw [Nat.add_assoc, Nat.add_comm 1 n]

/-- A checked call that ends the program: a response is built when its code is no error. -/
theorem writes_last {c : Call} (hc : c.wrote r (w.ret w.log.length) = (r.buf == r.buf && decide (0 ≤ code w 0)))
    (a : α) : Writes r (checked c >>= fun _ => (pure a : Prog ε α)) w ↔ 0 ≤ code w 0 := by
  rw [writes_checked fun _ => Along.pure a, or_iff_left fun h => not_writes_pure a h.2, hc]
  simp

def StatusArg.Converts : StatusArg ε → Prop
  | member _ => True
  | text token => Server.Converts token

/-- The library calls that its encoding makes. -/
def StatusArg.calls : StatusArg ε → Nat
  | member _ => 1
  | text _ => 0

/-- The terminal gets to its claim. -/
def Terminal.Takes (w : World Call Ret Flags) : Terminal ε → Prop
  | moved value | rateLimited value => Converts value ∧ 0 ≤ code w 0
  | partialContent _ ranges _ => ranges ≠ []
  | logDispatch _ _ now => Converts now ∧ code w 0 = 0
  | anchorDispatch _ _ ids now => (∀ i ∈ ids, Converts i) ∧ 0 ≤ code w 0 ∧ Converts now ∧ code w 1 = 0
  | _ => True

/-- Its parameters convert and its library calls succeed, and it is one that builds a response. -/
def Terminal.Completes (w : World Call Ret Flags) : Terminal ε → Prop
  | ok body | blit body | notModified body => Converts body ∧ 0 ≤ code w 0
  | status st body => st.Converts ∧ Converts body ∧ 0 ≤ code w st.calls
  | created body | accepted body | badRequest body | unauthorized body | forbidden body | notFound body
  | conflict body | error body => Converts body ∧ 0 ≤ code w 1
  | noContent | notAllowed | gone | tooLarge | preconditionFailed | unavailable | timeout | notImplemented =>
    0 ≤ code w 1
  | moved value | rateLimited value => Converts value ∧ 0 ≤ code w 0 ∧ 0 ≤ code w 2
  | partialContent body ranges contentType =>
    ranges ≠ [] ∧ (∀ a ∈ ranges, Converts a) ∧ Converts body ∧ Converts contentType ∧ 0 ≤ code w 0
  | rangeNotSatisfiable totalLen => Converts totalLen ∧ 0 ≤ code w 0
  | relay origin => (∃ o, origin = .ok o ∧ o.closed = false) ∧ 0 ≤ code w 0
  | defer | stream .. => False
  | logDispatch _ _ now => Converts now ∧ code w 0 = 0
  | anchorDispatch _ _ ids now => (∀ i ∈ ids, Converts i) ∧ 0 ≤ code w 0 ∧ Converts now ∧ code w 1 = 0

/-- A sub-router, which writes before it claims. -/
def Terminal.Routes : Terminal ε → Prop
  | logDispatch .. | anchorDispatch .. => True
  | _ => False

theorem Terminal.Completes.takes {t : Terminal ε} (h : t.Completes w) : t.Takes w := by
  cases t with
  | moved | rateLimited => exact ⟨h.1, h.2.1⟩
  | partialContent => exact h.1
  | logDispatch | anchorDispatch => exact h
  | _ => trivial

/-! ## On a free responder -/

/-- The world behind the claim of `r`. -/
def claimed (r : Responder) (w : World Call Ret Flags) : World Call Ret Flags :=
  { w with objs := { used := Function.update w.objs.used r.id true } }

theorem writes_claim (hw : w.objs.used r.id = false) (f : Unit → Prog ε α) :
    Writes r (r.claim >>= f) w ↔ Writes r (f ()) (claimed r w) := writes_bind_ok (claim_free hw) rfl

/-- A status argument converts in no call or in one, and no call of it builds a response. -/
theorem writes_encode {st : StatusArg ε} {f : Bytes → Prog ε α} {P : Prop} (hg : ∀ token, Grows (f token))
    (h : ∀ token v, code v 0 = code w st.calls → (Writes r (f token) v ↔ P)) :
    Writes r (st.encode >>= f) w ↔ st.Converts ∧ P := by
  cases st with
  | member s =>
    have hret : (StatusArg.encode (.member s) : Prog ε Bytes) w = .ok _ (w.called (.statusStr s.code)) := rfl
    rw [writes_bind_called hret rfl (hg _), h _ _ (code_called _ 0)]
    exact (and_iff_right trivial).symm
  | text token => exact writes_arg fun token => h token w rfl

theorem grows_status (st : StatusArg ε) (body : Arg ε Bytes) : Grows (r.status st body) :=
  (calls_claim r).bind fun _ => (along_encode grows_call _).bind fun _ => (along_arg _).bind fun _ =>
    (along_checked grows_call _).bind fun _ => Along.pure _

theorem writes_status (hw : w.objs.used r.id = false) (st : StatusArg ε) (body : Arg ε Bytes) :
    Writes r (r.status st body) w ↔ st.Converts ∧ Converts body ∧ 0 ≤ code w st.calls := by
  refine (writes_claim hw _).trans (writes_encode (fun _ => ?_) fun token v hv => writes_arg fun body => ?_)
  · exact (along_arg body).bind fun _ => (along_checked grows_call _).bind fun _ => Along.pure _
  · exact (writes_last rfl _).trans (by rw [hv]; rfl)

theorem writes_member (hw : w.objs.used r.id = false) (s : Status) (body : Arg ε Bytes) :
    Writes r (r.status (.member s) body) w ↔ Converts body ∧ 0 ≤ code w 1 :=
  (writes_status hw _ body).trans (and_iff_right trivial)

theorem writes_bare (hw : w.objs.used r.id = false) (s : Status) :
    Writes r (r.status (.member s) (Responder.noBody : Arg ε Bytes)) w ↔ 0 ≤ code w 1 :=
  (writes_member hw s _).trans (and_iff_right ⟨[], rfl⟩)

theorem writes_partialContent (hw : w.objs.used r.id = false) (body : Arg ε Bytes)
    (ranges : List (Arg ε (Nat × Nat))) (contentType : Arg ε Bytes) :
    Writes r (r.partialContent body ranges contentType) w ↔
      ranges ≠ [] ∧ (∀ a ∈ ranges, Converts a) ∧ Converts body ∧ Converts contentType ∧ 0 ≤ code w 0 := by
  unfold Responder.partialContent
  by_cases h : ranges.isEmpty = true
  · rw [if_pos h]
    exact iff_of_false (not_writes_bind_error rfl) fun hp => hp.1 (List.isEmpty_iff.1 h)
  · rw [if_neg h, and_iff_right (mt List.isEmpty_iff.2 h)]
    exact (writes_claim hw _).trans (writes_args fun arr => writes_arg fun body => writes_arg fun contentType =>
      writes_last rfl _)

theorem writes_relay (hw : w.objs.used r.id = false) (origin : Arg ε Response) :
    Writes r (r.relay origin) w ↔ (∃ o, origin = .ok o ∧ o.closed = false) ∧ 0 ≤ code w 0 := by
  refine (writes_claim hw _).trans ?_
  cases origin with
  | error e =>
    refine iff_of_false (not_writes_bind_error (arg_error e _)) ?_
    rintro ⟨⟨o, ho, -⟩, -⟩
    cases ho
  | ok o =>
    rw [writes_bind_ok (arg_ok o _) rfl]
    unfold Response.rawMessage
    cases hc : o.closed with
    | true =>
      refine iff_of_false (not_writes_bind_error rfl) ?_
      rintro ⟨⟨o', ho, hn⟩, -⟩
      cases ho
      rw [hc] at hn; cases hn
    | false => exact (writes_last rfl _).trans (and_iff_right ⟨o, rfl, hc⟩).symm

/-! ## Library calls before the claim -/

/-- When `P`, the program returns after one library call; else it raises, with that call made or none.
The call builds nothing. -/
def Prelude (r : Responder) (P : Prop) (x : Prog ε α) (w : World Call Ret Flags) : Prop :=
  ∃ c : Call, (∀ ret, c.wrote r ret = false) ∧
    ((P ∧ ∃ a, x w = .ok a (w.called c)) ∨ (¬ P ∧ ∃ e, x w = .error e w ∨ x w = .error e (w.called c)))

theorem prelude_checked {c : Call} (hc : ∀ ret, c.wrote r ret = false) (g : Ret → α) :
    Prelude r (0 ≤ code w 0) (checked c >>= fun ret => (pure (g ret) : Prog ε α)) w := by
  refine ⟨c, hc, ?_⟩
  by_cases h0 : 0 ≤ code w 0
  · exact .inl ⟨h0, _, bind_of_ok (checked_ok c h0) _⟩
  · obtain ⟨code, he⟩ := checked_error (ε := ε) c h0
    exact .inr ⟨h0, _, .inr (bind_of_error he _)⟩

theorem prelude_header (name : Bytes) (value : Arg ε Bytes) :
    Prelude r (Converts value ∧ 0 ≤ code w 0) (r.header (.ok name) value) w := by
  cases value with
  | error e =>
    exact ⟨.responseHeader r.buf name [], fun _ => rfl, .inr ⟨fun h => not_converts_error h.1, _, .inl rfl⟩⟩
  | ok value =>
    rw [and_iff_right (converts_ok value)]
    exact prelude_checked (c := .responseHeader r.buf name value) (fun _ => rfl) _

theorem prelude_peer (request : Request) : Prelude r (0 ≤ code w 0) (request.peerNodeId : Prog ε Bytes) w :=
  prelude_checked (fun _ => rfl) _

/-- What follows a prelude finds the responder as it was and the library one call on. -/
theorem Prelude.writes {P Q : Prop} {x : Prog ε α} {f : α → Prog ε β} (hx : Prelude r P x w) (hg : ∀ a, Grows (f a))
    (h : ∀ a v, (∀ n, code v n = code w (n + 1)) → v.objs = w.objs → (Writes r (f a) v ↔ Q)) :
    Writes r (x >>= f) w ↔ P ∧ Q := by
  obtain ⟨c, hc, ⟨hP, a, ha⟩ | ⟨hP, e, he | he⟩⟩ := hx
  · rw [writes_bind_called ha (hc _) (hg a), h a _ (code_called c) rfl, and_iff_right hP]
  · exact iff_of_false (not_writes_bind_error he) fun hp => hP hp.1
  · refine iff_of_false ?_ fun hp => hP hp.1
    unfold Writes
    rw [callsOf_called (after_error (bind_of_error he f))]
    simp [hc]

theorem Prelude.used {P Q : Prop} {x : Prog ε α} {f : α → Prog ε β} (hx : Prelude r P x w)
    (h : ∀ a v, (∀ n, code v n = code w (n + 1)) → v.objs = w.objs →
      ((after (f a) v).objs.used r.id = true ↔ w.objs.used r.id = true ∨ Q)) :
    (after (x >>= f) w).objs.used r.id = true ↔ w.objs.used r.id = true ∨ P ∧ Q := by
  obtain ⟨c, -, ⟨hP, a, ha⟩ | ⟨hP, e, he | he⟩⟩ := hx
  · rw [after_bind_ok ha, h a _ (code_called c) rfl, and_iff_right hP]
  · rw [after_bind_error he, or_iff_left fun hp => hP hp.1]
  · rw [after_bind_error he, or_iff_left fun hp => hP hp.1]
    exact Iff.rfl

/-- A stream's leading frame goes to the connection. -/
theorem not_writes_stream (path : Arg ε Bytes) (st : StatusArg ε) (headers : HeadersArg ε) :
    ¬ Writes r (r.stream path st headers) w := by
  refine not_writes_quiet ((calls_claim r).bind fun _ => (along_encodeHeaders headers).bind fun _ =>
    (along_arg path).bind fun _ => Along.bind ?_ fun _ => Along.bind ?_ fun _ => Along.pure _)
  · cases st with
    | member s => exact Along.bind (fun w => (quiet_call (fun _ => rfl) w).2) fun _ => Along.pure _
    | text token => exact along_arg token
  · exact fun w => (quiet_checked (fun _ => rfl) w).2

/-! ## Sub-routers, on any responder -/

/-- A sub-router's last call writes the response when its code is 0; the claim behind it writes nothing. -/
theorem writes_routed {c : Call} (hc : c.wrote r (w.ret w.log.length) = (r.buf == r.buf && code w 0 == 0)) :
    Writes r (call c >>= fun ret => (routed r ret.rc : Prog ε (Option Reply))) w ↔ code w 0 = 0 := by
  rw [writes_call (along_routed calls_claim _), or_iff_left (not_writes_quiet (along_routed calls_claim _)), hc]
  simp

theorem writes_anchorDispatch (a : AnchorNode) (request : Request) (ids : List (Arg ε Bytes)) (now : Arg ε Nat) :
    Writes r (a.dispatch request r ids now : Prog ε (Option Reply)) w ↔
      (∀ i ∈ ids, Converts i) ∧ 0 ≤ code w 0 ∧ Converts now ∧ code w 1 = 0 := by
  refine writes_args fun bs => (prelude_peer request).writes (fun peer => ?_) fun peer v hv _ =>
    writes_arg fun now => ?_
  · exact (along_arg now).bind fun _ => (grows_call _).bind fun _ => along_routed calls_claim _
  · exact (writes_routed rfl).trans (by rw [hv])

/-- Whether it claims the responder or finds it used, a sub-router writes when its library answers. -/
theorem Terminal.Routes.writes_iff {t : Terminal ε} (ht : t.Routes) : Writes r (t.run r) w ↔ t.Completes w := by
  cases t with
  | logDispatch l request now => exact writes_arg fun now => writes_routed rfl
  | anchorDispatch a request ids now => exact writes_anchorDispatch a request ids now
  | _ => exact ht.elim

/-! ## Every terminal -/

theorem Terminal.writes_free (hw : w.objs.used r.id = false) (t : Terminal ε) :
    Writes r (t.run r) w ↔ t.Completes w := by
  cases t with
  | ok body | blit body | notModified body =>
    exact (writes_map _ _).trans ((writes_claim hw _).trans (writes_arg fun body => writes_last rfl _))
  | rangeNotSatisfiable total =>
    exact (writes_map _ _).trans ((writes_claim hw _).trans (writes_arg fun total => writes_last rfl _))
  | status st body => exact (writes_map _ _).trans (writes_status hw st body)
  | created body | accepted body | badRequest body | unauthorized body | forbidden body | notFound body
  | conflict body | error body =>
    exact (writes_map _ _).trans (writes_member hw _ body)
  | noContent | notAllowed | gone | tooLarge | preconditionFailed | unavailable | timeout | notImplemented =>
    exact (writes_map _ _).trans (writes_bare hw _)
  | moved value | rateLimited value =>
    refine (writes_map _ _).trans (((prelude_header _ value).writes (fun _ => grows_status _ _)
      fun _ v hv hobjs => ?_).trans and_assoc)
    rw [writes_bare (hobjs ▸ hw), hv]
  | partialContent body ranges contentType =>
    exact (writes_map _ _).trans (writes_partialContent hw body ranges contentType)
  | relay origin => exact (writes_map _ _).trans (writes_relay hw origin)
  | defer => exact (writes_map _ _).trans ((writes_claim hw _).trans (iff_false_intro (not_writes_pure _)))
  | stream path st headers => exact (writes_map _ _).trans (iff_false_intro (not_writes_stream path st headers))
  | logDispatch | anchorDispatch => exact Routes.writes_iff trivial

theorem Terminal.writes_used (hw : w.objs.used r.id = true) (t : Terminal ε) :
    Writes r (t.run r) w ↔ t.Routes ∧ t.Completes w := by
  by_cases ht : t.Routes
  · rw [and_iff_right ht]; exact ht.writes_iff
  refine iff_of_false ?_ fun h => ht h.1
  by_cases hf : t.ClaimsFirst
  · exact not_writes_error ((t.claims hf).used hw)
  cases t with
  | moved value | rateLimited value =>
    intro h
    refine (((prelude_header _ value).writes (fun _ => grows_status _ _) fun _ v _ hobjs => ?_).1
      ((writes_map _ _).1 h)).2
    exact iff_false_intro (not_writes_error (claim_bind_used (hobjs ▸ hw) _))
  | partialContent body ranges contentType =>
    have hr : ranges = [] := by by_contra hr; exact hf hr
    subst hr
    exact not_writes_error rfl
  | logDispatch | anchorDispatch => exact absurd trivial ht
  | _ => exact absurd trivial hf

/-! ## The flag -/

theorem used_after_claim {f : Unit → Prog ε α} (hf : ∀ u, Along Keeps (f u)) :
    (after (r.claim >>= f) w).objs.used r.id = true := by
  cases hw : w.objs.used r.id with
  | true => rw [after_bind_error (claim_used hw)]; exact hw
  | false =>
    rw [after_bind_ok (claim_free hw)]
    exact hf _ _ r.id (used_of_claim (claim_free (ε := ε) hw))

theorem used_routed (rc : Int) :
    (after (routed r rc : Prog ε (Option Reply)) w).objs.used r.id = true ↔ w.objs.used r.id = true ∨ rc = 0 := by
  unfold routed
  by_cases h0 : rc = 0
  · rw [if_pos h0]
    exact iff_of_true (used_after_claim fun _ => Along.pure _) (.inr h0)
  rw [or_iff_left h0, if_neg h0]
  by_cases h1 : rc = 1
  · rw [if_pos h1, after_pure]
  · rw [if_neg h1]
    rcases check_cases (ε := ε) rc w with ⟨-, h⟩ | ⟨-, h⟩
    · rw [after_bind_ok h]; exact Iff.rfl
    · rw [after_bind_error h]

theorem used_headed (name : Bytes) (value : Arg ε Bytes) (st : StatusArg ε) :
    (after (r.header (.ok name) value >>= fun _ => r.status st Responder.noBody) w).objs.used r.id = true ↔
      w.objs.used r.id = true ∨ Converts value ∧ 0 ≤ code w 0 := by
  refine ((prelude_header name value).used fun _ v _ _ => ?_).trans (or_congr_right (and_iff_left trivial))
  refine iff_of_true (used_after_claim fun _ => ?_) (.inr trivial)
  exact (along_encode keeps_call st).bind fun _ => (along_arg _).bind fun _ =>
    (along_checked keeps_call _).bind fun _ => Along.pure _

/-- What both sub-routers end with: the conversion of the time, the library's call, and the claim. -/
theorem used_answer (c : Nat → Call) (now : Arg ε Nat) :
    (after (arg now >>= fun n => call (c n) >>= fun ret => (routed r ret.rc : Prog ε (Option Reply))) w).objs.used
      r.id = true ↔ w.objs.used r.id = true ∨ Converts now ∧ code w 0 = 0 := by
  cases now with
  | error e =>
    rw [after_bind_error (arg_error e w), or_iff_left fun h => not_converts_error h.1]
  | ok n =>
    rw [after_bind_ok (arg_ok n w), after_bind_ok (call_ok _ w), used_routed, and_iff_right (converts_ok n)]
    exact Iff.rfl

theorem used_anchorDispatch (a : AnchorNode) (request : Request) (ids : List (Arg ε Bytes)) (now : Arg ε Nat) :
    (after (a.dispatch request r ids now : Prog ε (Option Reply)) w).objs.used r.id = true ↔
      w.objs.used r.id = true ∨ (∀ i ∈ ids, Converts i) ∧ 0 ≤ code w 0 ∧ Converts now ∧ code w 1 = 0 := by
  unfold AnchorNode.dispatch
  rcases mapM_converts w ids with ⟨bs, hm, hids⟩ | ⟨e, hm, hids⟩
  · rw [after_bind_ok hm, and_iff_right hids]
    refine (prelude_peer request).used fun peer v hv hobjs => (used_answer _ now).trans ?_
    rw [hobjs, hv]
  · rw [after_bind_error hm, or_iff_left fun h => hids h.1]

theorem Terminal.ClaimsFirst.takes {t : Terminal ε} (h : t.ClaimsFirst) : t.Takes w := by
  cases t with
  | partialContent => exact h
  | moved | rateLimited | logDispatch | anchorDispatch => exact h.elim
  | _ => trivial

/-- What a terminal does to the flag: it is set where the terminal gets to its claim. -/
theorem Terminal.used_iff (t : Terminal ε) :
    (after (t.run r) w).objs.used r.id = true ↔ w.objs.used r.id = true ∨ t.Takes w := by
  by_cases hf : t.ClaimsFirst
  · obtain ⟨k, hk, hkeep⟩ := t.claims (r := r) hf
    rw [hk, after_map]
    exact iff_of_true (used_after_claim fun u => hkeep keeps_call u) (.inr hf.takes)
  cases t with
  | moved value | rateLimited value =>
    show (after (some <$> _) w).objs.used r.id = true ↔ _
    rw [after_map]
    exact used_headed _ _ _
  | logDispatch l request now => exact used_answer _ now
  | anchorDispatch a request ids now => exact used_anchorDispatch a request ids now
  | partialContent body ranges contentType =>
    have hr : ranges = [] := by by_contra hr; exact hf hr
    subst hr
    exact (or_iff_left fun h => h rfl).symm
  | _ => exact absurd trivial hf

/-! ## Operations -/

def Op.Takes (w : World Call Ret Flags) : Op ε → Prop
  | terminal t => t.Takes w
  | _ => False

def Op.Completes (w : World Call Ret Flags) : Op ε → Prop
  | terminal t => t.Completes w
  | _ => False

def Op.Routes : Op ε → Prop
  | terminal t => t.Routes
  | _ => False

theorem quiet_header (name value : Arg ε Bytes) : Along (Quiet r) (r.header name value) :=
  (along_arg name).bind fun _ => (along_arg value).bind fun _ => (quiet_checked fun _ => rfl).bind fun _ =>
    Along.pure _

theorem quiet_capture : Along (Quiet r) (r.capture : Prog ε Bytes) := by
  have hcap : Along (Quiet r) (checked (.responseCapture r.buf none) >>= fun ret =>
      checked (.responseCapture r.buf (some ret.out)) >>= fun frame =>
        (pure (frame.data.take frame.out) : Prog ε Bytes)) :=
    (quiet_checked fun _ => rfl).bind fun _ => (quiet_checked fun _ => rfl).bind fun _ => Along.pure _
  refine Along.get.bind fun w => ?_
  by_cases h : w.objs.used r.id = true
  · simp only [h]; exact hcap
  · simp only [h]; exact (Along.throw _).bind fun _ => hcap

/-- Headers and captures neither claim nor build. -/
theorem Op.quiet_of_idle {o : Op ε} (h : ∀ t, o ≠ .terminal t) : Along (Quiet r) (o.run r) := by
  cases o with
  | header name value => exact (quiet_header name value).bind fun _ => Along.pure _
  | terminal t => exact absurd rfl (h t)
  | capture => exact quiet_capture.bind fun _ => Along.pure _

theorem Op.used_iff (o : Op ε) :
    (after (o.run r) w).objs.used r.id = true ↔ w.objs.used r.id = true ∨ o.Takes w := by
  cases o with
  | terminal t => exact t.used_iff
  | header | capture =>
    rw [(quiet_of_idle (by rintro t ⟨⟩) w).1]
    exact (or_iff_left id).symm

theorem Op.writes_free (hw : w.objs.used r.id = false) (o : Op ε) : Writes r (o.run r) w ↔ o.Completes w := by
  cases o with
  | terminal t => exact t.writes_free hw
  | header | capture => exact iff_false_intro (not_writes_quiet fun w => (quiet_of_idle (by rintro t ⟨⟩) w).2)

theorem Op.writes_used (hw : w.objs.used r.id = true) (o : Op ε) :
    Writes r (o.run r) w ↔ o.Routes ∧ o.Completes w := by
  cases o with
  | terminal t => exact t.writes_used hw
  | header | capture =>
    exact iff_of_false (not_writes_quiet fun w => (quiet_of_idle (by rintro t ⟨⟩) w).2) fun h => h.1

theorem Op.Completes.takes {o : Op ε} (h : o.Completes w) : o.Takes w := by
  cases o with
  | terminal t => exact Terminal.Completes.takes h
  | header | capture => exact h.elim

/-! ## Sequences of operations -/

/-- The operations one after another on `r`. -/
def runOn (r : Responder) (ops : List (Op ε)) (w : World Call Ret Flags) : World Call Ret Flags :=
  runOps (ops.map fun o => (r, o)) w

/-- Some operation of the sequence put a response into the buffer. -/
def Built (r : Responder) (ops : List (Op ε)) (w : World Call Ret Flags) : Prop :=
  ∃ pre o post, ops = pre ++ o :: post ∧ Writes r (o.run r) (runOn r pre w)

/-- `capture` asks the library for the frame. -/
def Asks (ε : Type) (r : Responder) (w : World Call Ret Flags) : Prop :=
  ∃ ret cs, callsOf (r.capture : Prog ε Bytes) w = (.responseCapture r.buf none, ret) :: cs

/-- A `capture` behind the sequence asks the library if and only if a response was built, and raises
`RuntimeError` without a call if none was. -/
def CapturesBuilt (r : Responder) (ops : List (Op ε)) (w : World Call Ret Flags) : Prop :=
  (Asks ε r (runOn r ops w) ↔ Built r ops w) ∧
    (¬ Built r ops w → (r.capture : Prog ε Bytes) (runOn r ops w) =
      .error (.runtimeError Responder.nothingBuilt) (runOn r ops w))

/-- The operation claims the free responder, and builds nothing: a `defer`, a `stream`, or a terminal whose
parameters do not convert or whose library call fails. -/
def Op.Wastes (r : Responder) (w : World Call Ret Flags) (o : Op ε) : Prop :=
  w.objs.used r.id = false ∧ o.Takes w ∧ ¬ o.Completes w

/-- A sub-router of the sequence is answered by its library. -/
def Redeemed (r : Responder) (ops : List (Op ε)) (w : World Call Ret Flags) : Prop :=
  ∃ pre o post, ops = pre ++ o :: post ∧ o.Routes ∧ o.Completes (runOn r pre w)

/-- A place in a sequence is its head or a place in its tail. -/
theorem exists_place {P : List α → α → List α → Prop} {a : α} {l : List α} :
    (∃ pre x post, a :: l = pre ++ x :: post ∧ P pre x post) ↔
      P [] a l ∨ ∃ pre x post, l = pre ++ x :: post ∧ P (a :: pre) x post := by
  constructor
  · rintro ⟨_ | ⟨b, pre⟩, x, post, hl, hp⟩
    · cases hl; exact .inl hp
    · cases hl; exact .inr ⟨pre, x, post, rfl, hp⟩
  · rintro (hp | ⟨pre, x, post, rfl, hp⟩)
    · exact ⟨[], a, l, rfl, hp⟩
    · exact ⟨a :: pre, x, post, rfl, hp⟩

theorem built_cons {o : Op ε} {ops : List (Op ε)} :
    Built r (o :: ops) w ↔ Writes r (o.run r) w ∨ Built r ops (after (o.run r) w) := exists_place

theorem not_exists_place_nil {P : List α → α → List α → Prop} :
    ¬ ∃ pre x post, [] = pre ++ x :: post ∧ P pre x post := by
  rintro ⟨pre, x, post, h, -⟩
  cases pre <;> cases h

theorem used_runOn {ops : List (Op ε)} (hw : w.objs.used r.id = true) : (runOn r ops w).objs.used r.id = true :=
  used_runOps _ hw

/-- Once the responder is used, only an answered sub-router builds a response. -/
theorem built_used {ops : List (Op ε)} (hw : w.objs.used r.id = true) : Built r ops w ↔ Redeemed r ops w := by
  unfold Built Redeemed
  simp only [Op.writes_used (used_runOn hw)]

theorem capture_refuses (hw : w.objs.used r.id = false) :
    (r.capture : Prog ε Bytes) w = .error (.runtimeError Responder.nothingBuilt) w := by
  unfold Responder.capture
  rw [get_bind, hw]; rfl

theorem asks_used (hw : w.objs.used r.id = true) : Asks ε r w := by
  have hrun : (r.capture : Prog ε Bytes) w = (checked (.responseCapture r.buf none) >>= fun ret =>
      checked (.responseCapture r.buf (some ret.out)) >>= fun frame => pure (frame.data.take frame.out)) w := by
    unfold Responder.capture
    rw [get_bind, hw]; rfl
  unfold Asks
  rw [callsOf_congr hrun]
  by_cases h0 : 0 ≤ (w.ret w.log.length).rc
  · rw [callsOf_bind (checked_ok _ h0) (World.called_log w _)
      ((along_checked grows_call _).bind fun _ => Along.pure _)]
    exact ⟨_, _, rfl⟩
  · obtain ⟨code, hc⟩ := checked_error (ε := ε) (.responseCapture r.buf none) h0
    rw [callsOf_called (after_error (bind_of_error hc _))]
    exact ⟨_, _, rfl⟩

theorem asks_iff : Asks ε r w ↔ w.objs.used r.id = true := by
  refine ⟨fun h => ?_, asks_used⟩
  by_contra hw
  obtain ⟨ret, cs, h⟩ := h
  rw [callsOf_error (capture_refuses (by simpa using hw))] at h
  cases h

/-- `capture` is right about the buffer exactly when the flag is. -/
theorem capturesBuilt_iff {ops : List (Op ε)} :
    CapturesBuilt r ops w ↔ ((runOn r ops w).objs.used r.id = true ↔ Built r ops w) := by
  unfold CapturesBuilt
  rw [asks_iff]
  refine and_iff_left_of_imp fun h hb => capture_refuses ?_
  rw [← Bool.not_eq_true, h]; exact hb

/-- No place of the sequence wastes the claim, unless a sub-router behind it is answered. -/
def Sound (r : Responder) (ops : List (Op ε)) (w : World Call Ret Flags) : Prop :=
  ∀ pre o post, ops = pre ++ o :: post → o.Wastes r (runOn r pre w) → Redeemed r post (runOn r (pre ++ [o]) w)

theorem sound_cons {o : Op ε} {ops : List (Op ε)} : Sound r (o :: ops) w ↔
    (o.Wastes r w → Redeemed r ops (after (o.run r) w)) ∧ Sound r ops (after (o.run r) w) := by
  constructor
  · refine fun h => ⟨h [] o ops rfl, fun pre x post hl => ?_⟩
    exact h (o :: pre) x post (by rw [hl]; rfl)
  · rintro ⟨h, hs⟩ (_ | ⟨b, pre⟩) x post hl
    · cases hl; exact h
    · cases hl; exact hs pre x post rfl

theorem sound_nil : Sound r ([] : List (Op ε)) w := by
  intro pre o post h
  cases pre <;> cases h

theorem sound_used {ops : List (Op ε)} (hw : w.objs.used r.id = true) : Sound r ops w := by
  rintro pre o post - ⟨hf, -⟩
  rw [used_runOn hw] at hf; cases hf

theorem used_iff_built : ∀ (ops : List (Op ε)) {w : World Call Ret Flags}, w.objs.used r.id = false →
    (((runOn r ops w).objs.used r.id = true ↔ Built r ops w) ↔ Sound r ops w)
  | [], w, hw => by
    refine iff_of_true (iff_of_false ?_ not_exists_place_nil) sound_nil
    show ¬ w.objs.used r.id = true
    rw [hw]; exact Bool.false_ne_true
  | o :: ops, w, hw => by
    rw [built_cons, sound_cons, o.writes_free hw]
    by_cases ht : o.Takes w
    · -- the claim: from here on the flag is set, whatever comes of it
      have hused : (after (o.run r) w).objs.used r.id = true := o.used_iff.2 (.inr ht)
      have hend : (runOn r (o :: ops) w).objs.used r.id = true :=
        show (runOn r ops _).objs.used r.id = true from used_runOn hused
      rw [iff_true_left hend,
        and_iff_left (sound_used hused), built_used hused]
      by_cases hc : o.Completes w
      · exact iff_of_true (.inl hc) fun h => absurd hc h.2.2
      · exact ⟨fun h _ => h.resolve_left hc, fun h => .inr (h ⟨hw, ht, hc⟩)⟩
    · have hfree : (after (o.run r) w).objs.used r.id = false := by
        rw [← Bool.not_eq_true, o.used_iff, hw]
        exact not_or_intro Bool.false_ne_true ht
      rw [or_iff_right fun h => ht (Op.Completes.takes h), and_iff_right fun h => absurd h.2.1 ht]
      exact used_iff_built ops hfree

/-- On a fresh responder, whatever the sequence of operations and whatever the library answers: a
`capture` behind them reads a built response, and refuses without one, if and only if the operation that
claimed the responder built a response, or a sub-router was answered after it. -/
theorem captures_built_iff (hw : w.objs.used r.id = false) (ops : List (Op ε)) :
    CapturesBuilt r ops w ↔ ∀ pre o post, ops = pre ++ o :: post → o.Wastes r (runOn r pre w) →
      Redeemed r post (runOn r (pre ++ [o]) w) :=
  capturesBuilt_iff.trans (used_iff_built ops hw)

/-- A frame behind `ok`, none behind a `partial` without ranges, and one again where the log server
answers a deferred request. -/
theorem captures_built_iff_ok :
    CapturesBuilt responder [.terminal (.ok (.ok [104, 105]) : Terminal Unit)] fresh ∧
    CapturesBuilt responder [.terminal (.partialContent (.ok []) [] (.ok []) : Terminal Unit), .capture] fresh ∧
    CapturesBuilt responder [.terminal .defer, .terminal (.logDispatch ⟨7⟩ ⟨8, 1, 2⟩ (.ok 0) : Terminal Unit)]
      fresh := by
  refine ⟨(captures_built_iff rfl _).2 (sound_cons.2 ⟨fun h => absurd ⟨converts_ok _, by decide⟩ h.2.2, sound_nil⟩),
    (captures_built_iff rfl _).2 (sound_cons.2 ⟨fun h => absurd rfl h.2.1, ?_⟩),
    (captures_built_iff rfl _).2 (sound_cons.2 ⟨fun _ => ?_, sound_used rfl⟩)⟩
  · exact sound_cons.2 ⟨fun h => h.2.1.elim, sound_nil⟩
  · exact ⟨[], _, [], rfl, trivial, converts_ok _, rfl⟩

/-- A deferred request: nothing is in the buffer, and `capture` asks the library for its frame. -/
theorem capture_of_nothing :
    Asks Unit responder (runOn responder [.terminal (.defer : Terminal Unit)] fresh) ∧
      ¬ Built responder [.terminal (.defer : Terminal Unit)] fresh ∧
      ¬ CapturesBuilt responder [.terminal (.defer : Terminal Unit)] fresh := by
  have hasks : Asks Unit responder (runOn responder [.terminal (.defer : Terminal Unit)] fresh) := asks_used rfl
  have hnone : ¬ Built responder [.terminal (.defer : Terminal Unit)] fresh := by
    rw [built_cons, Op.writes_free rfl]
    exact not_or_intro id not_exists_place_nil
  exact ⟨hasks, hnone, fun h => hnone (h.1.1 hasks)⟩

end Nwep.Server
