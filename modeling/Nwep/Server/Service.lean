/-
Services: a handler with state of its own that keeps to the responder it was given. It adds headers, asks
sub-routers, answers with the first terminal that gives a `Reply`, and returns that; or an exception ends it.

Whatever state it keeps and whatever the library does, the library is told of each request exactly what
happened to it.
-/
import Nwep.Server.Handler

namespace Nwep.Server

open Lib

variable {ε σ ρ : Type}

/-! ## Handlers -/

/-- What a handler does with its responder: operations in order, until one raises or gives a `Reply`, which is
returned. Where none does, `last` is raised, or nothing returned. -/
structure Script (ε : Type) where
  ops : List (Op ε)
  last : Option (PyExc ε) := none

/-- How the operations went: the ones that were made, what they ended with, and the world after them. -/
structure Played (ε : Type) where
  ops : List (Op ε)
  ending : Except (PyExc ε) (Option Reply)
  world : World Call Ret Flags

def play (r : Responder) : List (Op ε) → World Call Ret Flags → Played ε
  | [], w => ⟨[], .ok none, w⟩
  | o :: ops, w =>
    match o.run r w with
    | .ok (some reply) v => ⟨[o], .ok (some reply), v⟩
    | .ok none v =>
      let p := play r ops v
      { p with ops := o :: p.ops }
    | .error e v => ⟨[o], .error e, v⟩

theorem play_single (r : Responder) (o : Op ε) (w : World Call Ret Flags) :
    (play r [o] w).world = after (o.run r) w := by
  unfold play
  cases h : o.run r w with
  | error e v => exact (after_error h).symm
  | ok reply v => cases reply <;> exact (after_ok h).symm

/-- The reply that was given, if any. -/
def Played.reply (p : Played ε) : Option Reply :=
  match p.ending with
  | .ok reply => reply
  | .error _ => none

/-- The binding's own exceptions are `Exception`s; of the others `kind` tells. -/
def caught (kind : ε → Raised) : PyExc ε → Raised
  | .raised e => kind e
  | _ => .exception

/-- `None` is no `Reply`, and has no `deferred`. -/
def Returned.nothing : Returned := ⟨.ok false, .error .exception⟩

def Returned.reply (reply : Reply) : Returned := ⟨.ok true, .ok reply.deferred⟩

def Script.exit (kind : ε → Raised) (sc : Script ε) : Except (PyExc ε) (Option Reply) → Except Raised Returned
  | .ok (some reply) => .ok (.reply reply)
  | .ok none => match sc.last with
    | some e => .error (caught kind e)
    | none => .ok .nothing
  | .error e => .error (caught kind e)

/-! ## Services -/

/-- A request as the library calls the callback with it, and what becomes of the trampoline's reports. -/
structure Incoming (ρ : Type) where
  buf : Nat
  conn : Nat
  streamId : Nat
  request : ρ
  complain : Except Raised Unit := .ok ()
  printExc : Except Raised Unit := .ok ()

/-- The server's side and the handler's state. -/
structure Node (σ : Type) where
  host : Host
  state : σ

namespace Node

/-- `Responder(resp_buf, server_ptr, conn_id, stream_id)`, a new object. -/
def responder (server : Nat) (s : Node σ) (inc : Incoming ρ) : Responder :=
  ⟨s.host.responders.length, inc.buf, server, inc.conn, inc.streamId⟩

/-- The world as the handler finds it, its responder not used. -/
def found (s : Node σ) : World Call Ret Flags :=
  { s.host.world with objs := { used := Function.update s.host.world.objs.used s.host.responders.length false } }

variable (server : Nat) (kind : ε → Raised) (handler : σ → Incoming ρ → σ × Script ε)

/-- How the handler's operations go. -/
def played (s : Node σ) (inc : Incoming ρ) : Played ε :=
  play (s.responder server inc) (handler s.state inc).2.ops s.found

def invocation (s : Node σ) (inc : Incoming ρ) : Invocation ε :=
  { buf := inc.buf, conn := inc.conn, streamId := inc.streamId
    ops := (s.played server handler inc).ops.map fun o => (0, o)
    exit := (handler s.state inc).2.exit kind (s.played server handler inc).ending
    complain := inc.complain, printExc := inc.printExc }

/-- One request. -/
def step (s : Node σ) (inc : Incoming ρ) : Option (Node σ) :=
  (Server.step server s.host (s.invocation server kind handler inc)).map fun h => ⟨h, (handler s.state inc).1⟩

def init (ret : Nat → Ret) (state : σ) : Node σ := ⟨.init ret, state⟩

/-- No exception leaves the callback. -/
def Contained (s : Node σ) (inc : Incoming ρ) : Prop := ¬ (s.invocation server kind handler inc).Escapes

end Node

/-- The library is told what happened: 0 where the request's responder gave its one reply, 1 where it
deferred, and the error code where it gave none. -/
def Exact (rep : Report) : Prop :=
  rep = ⟨answered, [{ deferred := false }]⟩ ∨ rep = ⟨deferred, [{ deferred := true }]⟩ ∨ rep = ⟨internalError, []⟩

/-! ## One request -/

section Handle

variable {r : Responder} {h : Host} {ops : List (Op ε)}

/-- The operations of the host, on the latest responder, are the handler's. -/
theorem handle_play (hr : h.responders.reverse[0]? = some r) {inv : Invocation ε}
    (ho : inv.ops = (play r ops h.world).ops.map fun o => (0, o)) :
    (h.handle inv).world = (play r ops h.world).world ∧
      (h.handle inv).replies = h.replies ++ ((play r ops h.world).reply.map fun reply => (r.id, reply)).toList ∧
      (h.handle inv).responders = h.responders := by
  unfold Host.handle
  rw [ho]
  clear ho
  induction ops generalizing h with
  | nil => exact ⟨rfl, (List.append_nil _).symm, rfl⟩
  | cons o ops ih =>
    unfold play
    cases hrun : o.run r h.world with
    | error e v =>
      simp only [List.map_cons, List.map_nil, List.foldl_cons, List.foldl_nil, hr, Host.use, hrun]
      exact ⟨trivial, (List.append_nil _).symm, trivial⟩
    | ok reply v =>
      cases reply with
      | some reply =>
        simp only [List.map_cons, List.map_nil, List.foldl_cons, List.foldl_nil, hr, Host.use, hrun]
        exact ⟨trivial, rfl, trivial⟩
      | none =>
        have hrest := ih (h := { h with world := v }) hr
        simp only [List.map_cons, List.foldl_cons, hr, Host.use, hrun]
        exact hrest

end Handle

section Step

variable {server : Nat} {kind : ε → Raised} {handler : σ → Incoming ρ → σ × Script ε} {s s' : Node σ} {inc : Incoming ρ}

/-- The replies so far are those of responders handed out. -/
def Node.Known (s : Node σ) : Prop := ∀ p ∈ s.host.replies, p.1 < s.host.responders.length

/-- What a request does: the world is as the handler leaves it, its reply is recorded, and the callback's value is
reported with it. -/
structure Node.Serves (server : Nat) (kind : ε → Raised) (handler : σ → Incoming ρ → σ × Script ε) (s : Node σ)
    (inc : Incoming ρ) (s' : Node σ) : Prop where
  state : s'.state = (handler s.state inc).1
  world : s'.host.world = (s.played server handler inc).world
  replies : s'.host.replies = s.host.replies ++
    ((s.played server handler inc).reply.map fun reply => (s.host.responders.length, reply)).toList
  responders : s'.host.responders = s.host.responders ++ [s.responder server inc]
  reports : s'.host.reports = s.host.reports ++
    [⟨(s.invocation server kind handler inc).value, (s.played server handler inc).reply.toList⟩]

/-- A responder that gave no reply before has given the one of this request, if there is one. -/
theorem repliesOf_new {n : Nat} {reply : Option Reply} (hk : s.Known) (hn : n = s.host.responders.length) {h : Host}
    (hr : h.replies = s.host.replies ++ (reply.map fun reply => (n, reply)).toList) : h.repliesOf n = reply.toList := by
  have hold : s.host.replies.filter (fun p => p.1 == n) = [] := by
    rw [List.filter_eq_nil_iff]
    intro p hp he
    have hlt := hk p hp
    rw [beq_iff_eq] at he
    omega
  unfold Host.repliesOf
  rw [hr, List.filter_append, hold, List.nil_append]
  cases reply with
  | none => rfl
  | some reply => simp

theorem Node.step_serves (hk : s.Known) (h : s.step server kind handler inc = some s') :
    Serves server kind handler s inc s' := by
  obtain ⟨host, hs, rfl⟩ := Option.map_eq_some_iff.1 h
  cases hs
  have hlast : (s.host.open server (s.invocation server kind handler inc)).responders.reverse[0]? =
      some (s.responder server inc) := by
    unfold Host.open
    simp only [List.reverse_append, List.reverse_singleton, List.singleton_append, List.getElem?_cons_zero]
    rfl
  have hops : (s.invocation server kind handler inc).ops =
      (play (s.responder server inc) (handler s.state inc).2.ops s.found).ops.map fun o => (0, o) := rfl
  obtain ⟨hworld, hreplies, hresponders⟩ := handle_play hlast hops
  refine ⟨rfl, hworld, hreplies, hresponders, ?_⟩
  simp only [handle_reports]
  rw [repliesOf_new hk rfl hreplies]
  rfl

theorem Node.Serves.known (h : Serves server kind handler s inc s') (hk : s.Known) : s'.Known := by
  intro p hp
  rw [h.responders, List.length_append, List.length_singleton]
  rw [h.replies] at hp
  rcases List.mem_append.1 hp with hp | hp
  · have := hk p hp
    omega
  · obtain ⟨reply, -, rfl⟩ := Option.map_eq_some_iff.1 (Option.mem_toList.1 hp)
    simp

/-- The handler returns a `Reply` exactly where an operation gave it. -/
theorem Node.returns_iff {flag : Bool} :
    (s.invocation server kind handler inc).Returns flag ↔
      (s.played server handler inc).reply = some { deferred := flag } := by
  unfold Invocation.Returns invocation Played.reply
  simp only
  generalize (s.played server handler inc).ending = ending
  unfold Script.exit
  rcases ending with e | _ | reply
  · simp
  · cases (handler s.state inc).2.last with
    | none => simp [Returned.nothing]
    | some e => simp
  · obtain ⟨g⟩ := reply
    simp [Returned.reply]

/-- The report is exact if and only if no exception leaves the callback. -/
theorem Node.exact_iff (s : Node σ) (inc : Incoming ρ) :
    Exact ⟨(s.invocation server kind handler inc).value, (s.played server handler inc).reply.toList⟩ ↔
      s.Contained server kind handler inc := by
  rcases (s.invocation server kind handler inc).value_cases with ⟨he, hv⟩ | ⟨flag, hf, hv⟩ | ⟨he, hf, hv⟩
  · -- it escapes: nothing was returned, and the library takes it for an answer
    have hnone : (s.played server handler inc).reply = none := by
      rw [Option.eq_none_iff_forall_ne_some]
      rintro ⟨flag⟩ hr
      exact Invocation.not_escapes (returns_iff.2 hr).raises he
    rw [hv, hnone]
    refine iff_of_false ?_ fun hc => hc he
    rintro (h | h | h) <;> cases h
  · rw [hv, returns_iff.1 hf]
    refine iff_of_true ?_ (Invocation.not_escapes hf.raises)
    cases flag with
    | false => exact .inl rfl
    | true => exact .inr (.inl rfl)
  · have hnone : (s.played server handler inc).reply = none := by
      rw [Option.eq_none_iff_forall_ne_some]
      rintro ⟨flag⟩ hr
      exact hf flag (returns_iff.2 hr)
    rw [hv, hnone]
    exact iff_of_true (.inr (.inr rfl)) he

end Step

/-! ## Runs -/

section Run

variable {server : Nat} {kind : ε → Raised} {handler : σ → Incoming ρ → σ × Script ε} {s : Node σ}

/-- On every run of requests to a service, every report is exact if and only if no exception ever leaves the
callback. -/
theorem reports_exact {ret : Nat → Ret} {state : σ} {incs : List (Incoming ρ)}
    (h : runs (Node.step server kind handler) (.init ret state) incs = some s) :
    (∀ rep ∈ s.host.reports, Exact rep) ↔
      Meets (Node.step server kind handler) (Node.Contained server kind handler) (.init ret state) incs := by
  have hkeep : ∀ (s : Node σ) inc s', s.Known → s.step server kind handler inc = some s' → s'.Known :=
    fun s inc s' hk h => (Node.step_serves hk h).known hk
  have hstep : ∀ (s : Node σ) inc s', s.Known → s.step server kind handler inc = some s' →
      ((∀ rep ∈ s'.host.reports, Exact rep) ↔
        (∀ rep ∈ s.host.reports, Exact rep) ∧ s.Contained server kind handler inc) := by
    intro s inc s' hk h
    rw [(Node.step_serves hk h).reports]
    simp only [List.mem_append, List.mem_singleton, or_imp, forall_and, forall_eq]
    exact and_congr Iff.rfl (s.exact_iff inc)
  have hknown : (Node.init ret state).Known := fun p hp => absurd hp List.not_mem_nil
  rw [runs_iff hkeep hstep incs hknown h]
  exact ⟨fun hm => hm.2, fun hm => ⟨fun rep hr => absurd hr List.not_mem_nil, hm⟩⟩

/-- A log server's handler: its routes first, and no other page. -/
def logNode (_ : Unit) (inc : Incoming Unit) : Unit × Script Unit :=
  ((), ⟨[.terminal (.logDispatch ⟨9⟩ ⟨5, 1, inc.conn⟩ (.ok 0)), .terminal (.notFound (.ok []))], none⟩)

/-- The first request is on a log route, the second is not. -/
def declineSecond (n : Nat) : Ret := if n = 1 then ⟨1, 0, []⟩ else ⟨0, 0, []⟩

def twoRequests : List (Incoming Unit) := [⟨100, 2, 3, (), .ok (), .ok ()⟩, ⟨101, 2, 7, (), .ok (), .ok ()⟩]

theorem reports_exact_log : ∃ s,
    runs (Node.step 1 (fun _ => .exception) logNode) (.init declineSecond ()) twoRequests = some s ∧
    s.host.reports.length = 2 ∧ ∀ rep ∈ s.host.reports, Exact rep := by
  have hrun : runs (Node.step 1 (fun _ => .exception) logNode) (.init declineSecond ()) twoRequests = some _ := rfl
  refine ⟨_, hrun, rfl, (reports_exact hrun).2 ⟨?_, ?_, trivial⟩⟩
  · exact Invocation.not_escapes rfl
  · exact Invocation.not_escapes rfl

end Run

end Nwep.Server
