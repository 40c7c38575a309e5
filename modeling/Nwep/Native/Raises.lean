/-
What the public operations raise when the library reports an error. Each function has the return codes that its
wrapper takes for errors; a call that returns one ends the operation with the exception of that code, and no
operation raises a protocol exception otherwise. So an `except` clause around an operation is entered exactly
where a call of the operation returned a code that the clause stands for.
-/
import Nwep.Errors
import Nwep.Lib.Surface
import Nwep.Native.Effect

namespace Nwep.Native

open Lib

variable {ε : Type}

/-! ## Errors and exceptions -/

/-- The return codes that are errors. A pointer, a number or nothing reports none, and the poll of a request, the
lookup of a record and the cache have codes for what is not there. -/
def Fn.reports : Fn → Int → Bool
  | messageGetStatus, _ | messageGetHeader, _ | messageHeaderAt, _ | messageHeaderCount, _ | messageGetBody, _
  | messageFree, _ | clientFd, _ | clientNextTimeoutMs, _ | clientIsAlive, _ | clientCompression, _
  | clientPollNotify, _ | clientRequestCancel, _ | clientSetRequestDone, _ | clientStreamClose, _ | clientClose, _
  | serverLocalPort, _ | serverFd, _ | serverNextTimeoutMs, _ | serverLoad, _ | serverSetOverloaded, _
  | serverConnCompression, _ | serverLastHandshakeError, _ | serverIsDrained, _ | serverClose, _
  | dhtNextTimeoutMs, _ | dhtClose, _ | logSize, _ | logFree, _ | logServerSetOnAppend, _ | logServerFree, _
  | cacheStats, _ | cacheClear, _ | cacheFree, _ | checkpointFree, _ | trustStoreMaxLogSize, _ | trustStoreFree, _
  | anchorNodeFree, _ => false
  | clientRequestPoll, rc => rc < 0 && rc != Client.wouldBlock
  | cacheGetSigned, rc => rc < 0 && rc != Cache.notFound && rc != Cache.cryptoVerify
  | dhtLookupResult, rc => rc != 0 && rc != Dht.notFound
  | _, rc => rc < 0

/-- The exception of the error that a call reports. -/
def reported (c : Call × Ret) : Option (PyExc ε) := if c.1.fn.reports c.2.rc then some (.nwep c.2.rc) else none

/-- The exceptions of `errors`. -/
def OfErrors : PyExc ε → Prop
  | .nwep _ | .configInvalid _ | .internalError _ => True
  | _ => False

abbrev Honest {α : Type} (x : Prog ε α) : Prop := Surfaces reported OfErrors x

/-- It is not one of these that is raised. -/
def Plain {α : Type} (x : Except (PyExc ε) α) : Prop := ∀ e, x = .error e → ¬ OfErrors e

/-! ## Rules -/

section Rules

variable {α β : Type} {w : Wrapper} {c : Call} {fn : Fn} {args : List Val} {x : Except (PyExc ε) α}

theorem plain_ok (a : α) : Plain (.ok a : Except (PyExc ε) α) := fun e h => by cases h

theorem plain_arg (a : Arg ε α) : Plain (a.mapError PyExc.raised) := by
  intro e h
  cases a <;> cases h
  exact id

theorem plain_map {f : α → β} (h : Plain x) : Plain (x.map f) := by
  intro e he
  cases x with
  | ok a => cases he
  | error e' => cases he; exact h _ rfl

theorem plain_bind {f : α → Except (PyExc ε) β} (h : Plain x) (hf : ∀ a, Plain (f a)) : Plain (x >>= f) := by
  intro e he
  cases x with
  | ok a => exact hf a e he
  | error e' => cases he; exact h _ rfl

theorem plain_ite {p : Prop} [Decidable p] {y : Except (PyExc ε) α} (hx : Plain x) (hy : Plain y) :
    Plain (if p then x else y) := by
  split
  · exact hx
  · exact hy

theorem plain_valueError (message : String) : Plain (.error (.valueError message) : Except (PyExc ε) α) := by
  rintro e ⟨⟩; exact id

theorem plain_param (f : α → Val) (a : Arg ε α) : Plain (param f a) := plain_map (plain_arg a)

theorem plain_expect (buf : Arg ε Bytes) (size : Nat) (name : String) : Plain (expect buf size name) :=
  plain_bind (plain_arg buf) fun _ => plain_ite (plain_valueError _) (plain_ok _)

theorem plain_lent (origin : Arg ε Server.Response) : Plain (lent origin) :=
  plain_bind (plain_arg origin) fun _ => plain_ite (plain_valueError _) (plain_ok _)

theorem plain_mapM {l : List (Except (PyExc ε) α)} (h : ∀ x ∈ l, Plain x) : Plain (l.mapM id) := by
  intro e he
  obtain ⟨x, hx, hxe⟩ := mapM_error he
  exact h x hx e hxe

theorem plain_forM : ∀ {l : List (Except (PyExc ε) Unit)}, (∀ x ∈ l, Plain x) → Plain (l.forM id)
  | [], _ => plain_ok _
  | x :: _, h => plain_bind (h x List.mem_cons_self) fun _ => plain_forM fun y hy => h y (List.mem_cons_of_mem _ hy)

theorem honest_raise (h : Plain x) : Honest (raise x) := by
  cases x with
  | ok a => exact Surfaces.pure a
  | error e => exact Surfaces.throw (h e rfl)

theorem honest_setObj (f : Obj → Obj) : Honest (setObj w f : Prog ε Unit) := Surfaces.modify fun _ => rfl

theorem honest_checkOpen (message : String) : Honest (checkOpen w message : Prog ε Unit) := by
  refine Surfaces.get.bind fun v => ?_
  by_cases h : isClosed w v = true
  · rw [if_pos h]; exact Surfaces.throw id
  · rw [if_neg h]; exact Surfaces.pure _

/-- A function that reports no errors. -/
theorem honest_quiet {g : Ret → Prog ε β} (hfn : ∀ rc, fn.reports rc = false) (hg : ∀ ret, Honest (g ret)) :
    Honest (callOn w fn args >>= g) := by
  refine Surfaces.call (fun ret _ => hg ret) fun ret e he => ?_
  unfold reported at he
  rw [hfn, if_neg Bool.false_ne_true] at he
  cases he

/-- `check`, on a function whose errors are the negative codes. -/
theorem honest_check {g : Ret → Prog ε β} (hfn : ∀ rc, c.fn.reports rc = decide (rc < 0)) (hg : ∀ ret, Honest (g ret)) :
    Honest (call c >>= fun ret => check ret.rc >>= fun _ => g ret) := by
  refine Surfaces.call (fun ret hret => ?_) fun ret e he v => ?_
  · refine Surfaces.bind (honest_raise fun e he => ?_) fun _ => hg ret
    unfold reported at hret
    rw [hfn] at hret
    unfold checkCode at he
    by_cases hn : ret.rc < 0
    · simp [hn] at hret
    · rw [if_neg hn] at he; cases he
  · unfold reported at he
    rw [hfn] at he
    by_cases hn : ret.rc < 0
    · rw [if_pos (decide_eq_true hn)] at he
      cases he
      refine ⟨v, bind_of_error ?_ _, rfl⟩
      unfold check checkCode
      rw [if_pos hn]; rfl
    · simp [hn] at he

end Rules

/-! ## Methods -/

/-- The result of a function raises the errors it reports, and no others. -/
def Gated (fn : Fn) (result : Ret → Except (PyExc ε) Value) : Prop :=
  ∀ ret, (fn.reports ret.rc = true → result ret = .error (.nwep ret.rc)) ∧
    (fn.reports ret.rc = false → Plain (result ret))

structure Method.Tells (m : Method ε) : Prop where
  checks : ∀ x ∈ m.checks, Plain x
  args : ∀ a ∈ m.args, Plain a
  gated : Gated m.fn m.result

section Methods

variable {fn : Fn} {m : Method ε} {w : Wrapper} {k : Cls}

theorem honest_gated {args : List Val} {result : Ret → Except (PyExc ε) Value} (h : Gated fn result) :
    Honest (callOn w fn args >>= fun ret => raise (result ret)) := by
  refine Surfaces.call (fun ret hret => ?_) fun ret e he v => ?_
  · refine honest_raise ((h ret).2 ?_)
    unfold reported at hret
    by_cases hr : fn.reports ret.rc = true
    · rw [if_pos hr] at hret; cases hret
    · exact Bool.eq_false_iff.2 hr
  · unfold reported at he
    by_cases hr : fn.reports ret.rc = true
    · rw [if_pos hr] at he
      cases he
      exact ⟨v, by rw [(h ret).1 hr]; rfl, rfl⟩
    · rw [if_neg hr] at he; cases he

theorem Method.honest (h : m.Tells) (w : Wrapper) : Honest (m.run w) := by
  have hentry : Honest (m.entry w) := by
    unfold Method.entry
    cases m.guard with
    | none => exact Surfaces.pure _
    | some message => exact honest_checkOpen message
  have hparams : Plain m.params := plain_bind (plain_forM h.checks) fun _ => plain_mapM h.args
  exact hentry.bind fun _ => (honest_raise hparams).bind fun vals => honest_gated h.gated

theorem gated_unchecked {f : Ret → Value} (hfn : ∀ rc, fn.reports rc = false) :
    Gated fn (unchecked f : Ret → Except (PyExc ε) Value) :=
  fun ret => ⟨fun h => absurd h (by rw [hfn]; decide), fun _ => plain_ok _⟩

/-- What is made of a code that `check` passed. -/
theorem gated_checkCode {f : Ret → Int → Except (PyExc ε) Value} (hfn : ∀ rc, fn.reports rc = decide (rc < 0))
    (hf : ∀ ret rc, Plain (f ret rc)) : Gated fn fun ret => checkCode ret.rc >>= f ret := by
  intro ret
  rw [hfn]
  unfold checkCode
  dsimp only
  by_cases hn : ret.rc < 0
  · rw [if_pos hn]
    exact ⟨fun _ => rfl, fun h => absurd hn (of_decide_eq_false h)⟩
  · rw [if_neg hn]
    exact ⟨fun h => absurd (of_decide_eq_true h) hn, fun _ => hf ret ret.rc⟩

theorem gated_checked {f : Ret → Value} (hfn : ∀ rc, fn.reports rc = decide (rc < 0)) :
    Gated fn (checked f : Ret → Except (PyExc ε) Value) :=
  gated_checkCode hfn fun _ _ => plain_ok _

theorem gated_checkedEnum (name : String) (n : Nat) (hfn : ∀ rc, fn.reports rc = decide (rc < 0)) :
    Gated fn (checkedEnum name n : Ret → Except (PyExc ε) Value) :=
  gated_checkCode hfn fun _ _ => plain_ite (plain_ok _) (plain_valueError _)

theorem gated_routed (used : Bool) (hfn : ∀ rc, fn.reports rc = decide (rc < 0)) :
    Gated fn (routed used : Ret → Except (PyExc ε) Value) := by
  intro ret
  rw [hfn]
  unfold routed checkCode
  by_cases hn : ret.rc < 0
  · rw [if_neg (by omega), if_neg (by omega), if_pos hn]
    exact ⟨fun _ => rfl, fun h => absurd hn (of_decide_eq_false h)⟩
  · refine ⟨fun h => absurd (of_decide_eq_true h) hn, fun _ => ?_⟩
    refine plain_ite (plain_ite ?_ (plain_ok _)) (plain_ite (plain_ok _) ?_)
    · rintro e ⟨⟩; exact id
    · rw [if_neg hn]; exact plain_ok _

/-- What is not there is no error. -/
theorem gated_found (missed : Int → Prop) [DecidablePred missed] (hm : ∀ rc, missed rc → rc < 0)
    (hfn : ∀ rc, fn.reports rc = (decide (rc < 0) && !decide (missed rc))) :
    Gated fn (fun ret => do
      if ret.rc = 0 then return made ret
      else if missed ret.rc then return .none
      else
        let _ ← checkCode ret.rc
        return .none : Ret → Except (PyExc ε) Value) := by
  intro ret
  rw [hfn]
  unfold checkCode
  dsimp only
  by_cases hmiss : missed ret.rc
  · have := hm _ hmiss
    rw [if_neg (by omega), if_pos hmiss]
    simp only [hmiss, decide_true, Bool.not_true, Bool.and_false, Bool.false_eq_true, false_implies, true_and]
    exact fun _ => plain_ok _
  · rw [if_neg hmiss]
    by_cases hn : ret.rc < 0
    · rw [if_neg (by omega), if_pos hn]
      simp only [hn, hmiss, decide_true, decide_false, Bool.not_false, Bool.and_true, reduceCtorEq, false_implies,
        and_true]
      exact fun _ => rfl
    · rw [if_neg hn]
      simp only [hn, decide_false, Bool.false_and, Bool.false_eq_true, false_implies, true_and]
      exact fun _ => plain_ite (plain_ok _) (plain_ok _)

theorem Public.tells (h : Public k (.method m)) : m.Tells where
  checks := by
    cases h
    case trustStoreLoadGenesisAnchors pubkeys =>
      intro x hx
      obtain ⟨pk, -, rfl⟩ := List.mem_map.1 hx
      exact plain_expect _ _ _
    case trustStoreVerifyKey now client nodeId commitment =>
      intro x hx
      obtain ⟨c, -, rfl⟩ := Option.map_eq_some_iff.1 (Option.mem_toList.1 hx)
      exact plain_expect _ _ _
    all_goals
      repeat' first
      | exact List.forall_mem_nil _
      | refine List.forall_mem_cons.2 ⟨plain_expect _ _ _, ?_⟩
  args := by
    cases h
    case trustStoreVerifyKey now client nodeId commitment =>
      refine List.forall_mem_cons.2 ⟨plain_param _ _, List.forall_mem_cons.2 ⟨plain_param _ _, ?_⟩⟩
      refine List.forall_mem_cons.2 ⟨?_, List.forall_mem_cons.2 ⟨plain_param _ _, List.forall_mem_nil _⟩⟩
      cases commitment with
      | none => exact plain_ok _
      | some c => exact plain_param _ _
    all_goals
      repeat' first
      | exact List.forall_mem_nil _
      | refine List.forall_mem_cons.2 ⟨plain_param _ _, ?_⟩
      | refine List.forall_mem_cons.2 ⟨plain_lent _, ?_⟩
      | refine List.forall_mem_cons.2 ⟨plain_ok _, ?_⟩
  gated := by
    cases h
    case clientPollRequest request =>
      refine gated_found (fun rc => rc = Client.wouldBlock) (fun rc hrc => by rw [hrc]; decide) fun rc => ?_
      by_cases hrc : rc = Client.wouldBlock <;> simp [Fn.reports, Client.pollRequest, hrc]
    case cacheGetSigned method path originPubkey now =>
      refine gated_found (fun rc => rc = Cache.notFound ∨ rc = Cache.cryptoVerify) ?_ fun rc => ?_
      · rintro rc (rfl | rfl) <;> decide
      · change (decide (rc < 0) && rc != Cache.notFound && rc != Cache.cryptoVerify) = _
        rw [Bool.decide_or, Bool.not_or, ← Bool.and_assoc]
        rfl
    case dhtLookupResult target =>
      intro ret
      by_cases h0 : ret.rc = 0
      · simp [Fn.reports, Dht.lookupResult, h0, plain_ok]
      by_cases hn : ret.rc = Dht.notFound
      · simp only [Fn.reports, Dht.lookupResult, hn, bne_self_eq_false, Bool.and_false, Bool.false_eq_true,
          false_implies, true_and, if_true]
        exact fun _ => plain_ite (plain_ok _) (plain_ok _)
      · simp [Fn.reports, Dht.lookupResult, h0, hn]
    all_goals first
      | exact gated_checked fun _ => rfl
      | exact gated_unchecked fun _ => rfl
      | exact gated_checkedEnum _ _ fun _ => rfl
      | exact gated_routed _ fun _ => rfl

theorem Public.repr_tells (h : Public k (.repr m)) : m.Tells := by
  cases h <;> exact ⟨List.forall_mem_nil _, List.forall_mem_nil _, gated_unchecked fun _ => rfl⟩

end Methods

/-! ## The other operations -/

section Bodies

variable {w : Wrapper}

theorem honest_close (k : Kind) : Honest (closeWith w k : Prog ε Value) := by
  refine Surfaces.get.bind fun v => ?_
  by_cases h : isClosed w v = true
  · rw [if_pos h]; exact Surfaces.pure _
  · rw [if_neg h]
    refine honest_quiet (fun rc => by cases k <;> rfl) fun _ => ?_
    exact (honest_setObj _).bind fun _ => Surfaces.pure _

theorem honest_setCallback {fn : Fn} (hfn : ∀ rc, fn.reports rc = false) (hook : Option Nat) :
    Honest (setCallback w fn hook : Prog ε Value) := by
  cases hook with
  | none => exact honest_quiet hfn fun _ => (honest_setObj _).bind fun _ => Surfaces.pure _
  | some hook => exact (honest_setObj _).bind fun _ => honest_quiet hfn fun _ => Surfaces.pure _

theorem honest_headers : Honest (Response.headers w : Prog ε Value) :=
  (honest_checkOpen _).bind fun _ => (honest_setObj _).bind fun _ => Surfaces.pure _

theorem honest_next (i : Nat) (decode : Bytes → Arg ε Bytes) : Honest (Response.next w i decode) := by
  refine Surfaces.get.bind fun v => ?_
  split
  · refine honest_quiet (fun _ => rfl) fun ret => ?_
    split
    · split
      · exact (honest_setObj _).bind fun _ => Surfaces.pure _
      · exact (honest_setObj _).bind fun _ => Surfaces.throw id
    · exact (honest_setObj _).bind fun _ => Surfaces.pure _
  · exact Surfaces.pure _

theorem honest_setCache (cache : Option (Arg ε Nat)) : Honest (Client.setCache w cache : Prog ε Value) := by
  refine Surfaces.bind (honest_raise ?_) fun val => honest_check (fun _ => rfl) fun _ => ?_
  · cases cache with
    | none => exact plain_ok _
    | some cache => exact plain_param _ _
  · exact (honest_setObj _).bind fun _ => Surfaces.pure _

/-- A failed handshake marks the object as done before it raises. -/
theorem honest_poll : Honest (Connecting.poll w : Prog ε Value) := by
  refine (honest_checkOpen _).bind fun _ => Surfaces.call (fun ret hret => ?_) fun ret e he v => ?_
  · split
    · exact (honest_setObj _).bind fun _ => Surfaces.pure _
    split
    · exact Surfaces.pure _
    · refine (honest_setObj _).bind fun _ => Surfaces.bind (honest_raise fun e he => ?_) fun _ => Surfaces.pure _
      unfold checkCode at he
      by_cases hn : ret.rc < 0
      · simp [reported, Fn.reports, hn] at hret
      · rw [if_neg hn] at he; cases he
  · by_cases hn : ret.rc < 0
    · rw [if_neg (by omega), if_neg (by omega)]
      have hset := setObj_ok (w := w) (ε := ε) (fun o => { o with closed := true }) v
      simp only [reported, Fn.reports, hn, decide_true, if_true, Option.some.injEq] at he
      subst he
      refine ⟨withObj w (fun o => { o with closed := true }) v, (bind_of_ok hset _).trans (bind_of_error ?_ _), rfl⟩
      unfold check checkCode
      rw [if_pos hn]; rfl
    · simp [reported, Fn.reports, hn] at he

theorem honest_save : Honest (TrustStore.save w : Prog ε Value) := by
  refine (honest_checkOpen _).bind fun _ => honest_check (fun _ => rfl) fun ret => ?_
  exact honest_check (fun _ => rfl) fun _ => Surfaces.pure _

theorem honest_anchorDispatch (server : Nat) (conn : Arg ε Int) (anchorIds : List (Arg ε NodeId)) (msg buf : Nat)
    (now : Arg ε Int) (used : Bool) : Honest (AnchorNode.dispatch w server conn anchorIds msg buf now used) := by
  refine Surfaces.bind (honest_raise (plain_arg _)) fun ids => ?_
  refine Surfaces.bind (honest_raise (plain_param _ _)) fun conn => ?_
  refine honest_check (fun _ => rfl) fun peer => Surfaces.bind (honest_raise (plain_param _ _)) fun now => ?_
  have hgated : Gated Fn.anchorNodeDispatch (routed used : Ret → Except (PyExc ε) Value) :=
    gated_routed used fun _ => rfl
  exact honest_gated hgated

/-- Every public operation raises what the library reports to it. -/
theorem Public.honest {k : Cls} {b : Body ε} (h : Public k b) (w : Wrapper) : Honest (b.run k w) := by
  cases b with
  | method m => exact Method.honest h.tells w
  | repr m =>
    refine Surfaces.get.bind fun v => ?_
    by_cases hc : isClosed w v = true
    · rw [if_pos hc]; exact Surfaces.pure _
    · rw [if_neg hc]; exact Method.honest h.repr_tells w
  | headers => exact honest_headers
  | next i decode => exact honest_next i decode
  | setCache cache => exact honest_setCache cache
  | onRequestDone hook => exact honest_setCallback (fun _ => rfl) hook
  | onAppend hook => exact honest_setCallback (fun _ => rfl) hook
  | poll => exact honest_poll
  | save => exact honest_save
  | anchorDispatch server conn anchorIds msg buf now used =>
    exact honest_anchorDispatch server conn anchorIds msg buf now used
  | close => exact honest_close k.kind

end Bodies

/-! ## What a clause catches -/

theorem exn_isSome {text : Int → Option String} {t : Errors.Table} {e : PyExc ε} :
    (∃ x, Errors.exn text t e = some x) ↔ OfErrors e := by
  cases e with
  | nwep | configInvalid | internalError => exact iff_of_true ⟨_, rfl⟩ trivial
  | runtimeError | valueError | raised => exact iff_of_false (fun ⟨_, h⟩ => by cases h) id

theorem reported_iff {c : Call × Ret} {e : PyExc ε} :
    reported c = some e ↔ c.1.fn.reports c.2.rc = true ∧ e = .nwep c.2.rc := by
  unfold reported
  by_cases hr : c.1.fn.reports c.2.rc = true
  · rw [if_pos hr, Option.some_inj, eq_comm]
    exact (and_iff_right hr).symm
  · rw [if_neg hr]
    exact iff_of_false (fun h => by cases h) fun h => hr h.1

/-- A clause catches where a call reported a code that it stands for. -/
theorem Public.caught {k : Cls} {b : Body ε} (h : Public k b) (text : Int → Option String) (t : Errors.Table)
    (cls : Errors.Cls) (w : Wrapper) (v : Heap) :
    (∃ e v', b.run k w v = .error e v' ∧ ∃ x, Errors.exn text t e = some x ∧ x.CaughtBy cls) ↔
      ∃ c ∈ callsOf (b.run k w) v, c.1.fn.reports c.2.rc = true ∧ t.Covers cls c.2.rc := by
  have hiff := (h.honest w).raises_iff (fun c e hc => (reported_iff.1 hc).2 ▸ trivial)
    (fun e => ∃ x, Errors.exn text t e = some x ∧ x.CaughtBy cls) v
  constructor
  · rintro ⟨e, v', he, x, hx, hcls⟩
    obtain ⟨c, hc, e', he', x', hx', hcls'⟩ := hiff.1 ⟨e, v', he, exn_isSome.1 ⟨x, hx⟩, x, hx, hcls⟩
    obtain ⟨hrep, rfl⟩ := reported_iff.1 he'
    cases hx'
    exact ⟨c, hc, hrep, Errors.caught_iff_covers.1 hcls'⟩
  · rintro ⟨c, hc, hrep, hcov⟩
    obtain ⟨e, v', he, -, hx⟩ := hiff.2
      ⟨c, hc, _, reported_iff.2 ⟨hrep, rfl⟩, _, rfl, Errors.caught_iff_covers.2 hcov⟩
    exact ⟨e, v', he, hx⟩

/-- What is raised is the exception of a call's code, with its message and its mark of a fatal error. -/
theorem Public.raised {k : Cls} {b : Body ε} (h : Public k b) {text : Int → Option String} {t : Errors.Table}
    {w : Wrapper} {v v' : Heap} {e : PyExc ε} {x : Errors.Exn} (he : b.run k w v = .error e v')
    (hx : Errors.exn text t e = some x) :
    ∃ c ∈ callsOf (b.run k w) v, c.1.fn.reports c.2.rc = true ∧ x = Errors.fromCode text t c.2.rc := by
  have hiff := (h.honest w).raises_iff (fun c e hc => (reported_iff.1 hc).2 ▸ trivial) (· = e) v
  obtain ⟨c, hc, e', he', rfl⟩ := hiff.1 ⟨e, v', he, exn_isSome.1 ⟨x, hx⟩, rfl⟩
  obtain ⟨hrep, rfl⟩ := reported_iff.1 he'
  cases hx
  exact ⟨c, hc, hrep, rfl⟩

/-- On every run of a public operation, whatever the library returns: an `except` clause around it catches if
and only if a call of the operation returned an error whose code the clause stands for; no call follows one
that returned an error; and the exception has the code of a call that did, with the library's text for it, and is
marked fatal where the clause for fatal errors stands for the code. -/
theorem caught_iff {k : Cls} {b : Body ε} (h : Public k b) (text : Int → Option String) (t : Errors.Table)
    (cls : Errors.Cls) (w : Wrapper) (v : Heap) :
    ((∃ e v', b.run k w v = .error e v' ∧ ∃ x, Errors.exn text t e = some x ∧ x.CaughtBy cls) ↔
      ∃ c ∈ callsOf (b.run k w) v, c.1.fn.reports c.2.rc = true ∧ t.Covers cls c.2.rc) ∧
    (∀ c ∈ (callsOf (b.run k w) v).dropLast, c.1.fn.reports c.2.rc = false) ∧
    ∀ e v' x, b.run k w v = .error e v' → Errors.exn text t e = some x →
      ∃ c ∈ callsOf (b.run k w) v, c.1.fn.reports c.2.rc = true ∧ x.code = c.2.rc ∧
        (x.fatal = true ↔ t.Covers .fatalError c.2.rc) ∧
        (Errors.strerror text c.2.rc ≠ "" → x.message = Errors.strerror text c.2.rc) := by
  refine ⟨h.caught text t cls w v, fun c hc => ?_, fun e v' x he hx => ?_⟩
  · have hnone := (h.honest w).last v c hc
    by_contra hr
    rw [reported_iff.2 ⟨by simpa using hr, rfl⟩] at hnone
    cases hnone
  · obtain ⟨c, hc, hrep, rfl⟩ := h.raised he hx
    exact ⟨c, hc, hrep, Errors.fromCode_code _, Errors.fromCode_fatal _, Errors.fromCode_message⟩

/-- A request that the node turns away for its rate: a clause for the errors of the application catches what is
raised, one for fatal errors does not. -/
theorem caught_iff_send :
    let send := (.method (Client.send (ε := Unit) (.ok 0) (.ok [47]) (.ok []) (.ok none)) : Body Unit)
    let v : Heap := ⟨fun _ => {}, fun _ => ⟨-603, 0, []⟩, []⟩
    let caught := fun cls => ∃ e v', send.run .client ⟨0, 7⟩ v = .error e v' ∧
      ∃ x, Errors.exn (fun _ => none) Errors.table e = some x ∧ x.CaughtBy cls
    caught (.family .app) ∧ ¬ caught .fatalError := by
  intro send v caught
  have hsend : Public .client send := .clientSend _ _ _ _
  constructor
  · have hlists : Errors.table.Lists (-603) := by unfold Errors.Table.Lists; decide
    exact (caught_iff hsend _ _ _ _ _).1.2 ⟨_, List.mem_singleton_self _, rfl, hlists, by decide⟩
  · intro h
    obtain ⟨c, hc, -, -, hfatal⟩ := (caught_iff hsend _ _ _ _ _).1.1 h
    cases List.mem_singleton.1 hc
    revert hfatal; decide

end Nwep.Native
