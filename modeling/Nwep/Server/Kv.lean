/-
The key-value node: values stored under paths by write requests, removed by delete requests and served to all
others, and a notification pushed from the server's loop for each write.

A request is answered from the writes and deletes before it; the notifications go out in the order of the
writes, one for each.
-/
import Nwep.Lib.Journal
import Nwep.Lib.Observe
import Nwep.Server.Answered
import Nwep.Server.Service

namespace Nwep.Server

open Lib

/-- `wire.Method`. -/
inductive Method where
  | read | write | update | delete | heartbeat | head
deriving Repr, DecidableEq

namespace Kv

variable {ε : Type}

/-! ## The handler -/

/-- The parts of a request the handler reads; a header that is no UTF-8 raises. -/
structure Request (ε : Type) where
  method : Arg ε (Option Method)
  path : Arg ε (Option String)
  body : Bytes

/-- `path = req.path or ""`, then `req.method`. -/
def Request.parsed (r : Request ε) : Arg ε (String × Option Method) := do
  let path ← r.path
  let method ← r.method
  return (path.getD "", method)

/-- `store` and `to_notify`. -/
structure State where
  store : String → Option Bytes
  toNotify : List Nat

def State.empty : State := ⟨fun _ => none, []⟩

/-- A status and no body. -/
def bare (status : Status) : Script ε := ⟨[.terminal (.status (.member status) Responder.noBody)], none⟩

def handler (s : State) (inc : Incoming (Request ε)) : State × Script ε :=
  match inc.request.parsed with
  | .error e => (s, ⟨[], some (.raised e)⟩)
  | .ok (path, some .write) =>
    (⟨Function.update s.store path (some inc.request.body), s.toNotify ++ [inc.conn]⟩, bare .created)
  | .ok (path, some .delete) =>
    match s.store path with
    | some _ => ({ s with store := Function.update s.store path none }, bare .noContent)
    | none => (s, bare .notFound)
  | .ok (path, _) =>
    match s.store path with
    | some value => (s, ⟨[.terminal (.ok (.ok value))], none⟩)
    | none => (s, bare .notFound)

/-! ## The loop -/

/-- Where the server's thread is: in `tick`, in `push` with the connections still to be notified, or gone. -/
inductive Pc where
  | tick
  | push (pending : List Nat)
  | stopped
  | failed (pending : List Nat)
deriving Repr, DecidableEq

def Pc.pending : Pc → List Nat
  | .push pending | .failed pending => pending
  | .tick | .stopped => []

/-- `notified` are the connections `notify` was called for. -/
structure Loop where
  node : Node State
  pc : Pc
  notified : List Nat

/-- Within a tick any number of requests comes in; an exception ends the thread. -/
inductive Act (ε : Type) where
  | request (inc : Incoming (Request ε))
  | tick (r : Except ε Unit)
  | notify (r : Except ε Unit)
  | loop (stop : Bool)

variable (server : Nat) (kind : ε → Raised)

def step (s : Loop) : Act ε → Option Loop
  | .request inc =>
    if s.pc = .tick then (Node.step server kind handler s.node inc).map fun n => { s with node := n } else none
  | .tick r => match s.pc, r with
    | .tick, .ok _ =>
      -- `pending = list(to_notify)`, `to_notify.clear()`
      some { s with
        pc := .push s.node.state.toNotify
        node := { s.node with state := { s.node.state with toNotify := [] } } }
    | .tick, .error _ => some { s with pc := .failed [] }
    | _, _ => none
  | .notify r => match s.pc with
    | .push (conn :: pending) =>
      some { s with notified := s.notified ++ [conn], pc := match r with
        | .ok _ => .push pending
        | .error _ => .failed pending }
    | _ => none
  | .loop stop => match s.pc with
    | .push [] => some { s with pc := if stop then .stopped else .tick }
    | _ => none

def init (ret : Nat → Ret) : Loop := ⟨.init ret .empty, .tick, []⟩

/-- A request, with the calls its handler made. -/
def served (s : Loop) : Act ε → Option (Incoming (Request ε) × List Call)
  | .request inc =>
    some (inc, ((s.node.played server handler inc).world.log.drop s.node.host.world.log.length).map Prod.fst)
  | _ => none

/-! ## What a request is answered -/

/-- The change a request makes to the table. -/
def change (inc : Incoming (Request ε)) : Option (Change String Bytes) :=
  match inc.request.parsed with
  | .ok (path, some .write) => some ⟨path, some inc.request.body⟩
  | .ok (path, some .delete) => some ⟨path, none⟩
  | _ => none

/-- The connection that wrote. -/
def writer (inc : Incoming (Request ε)) : Option Nat :=
  match inc.request.parsed with
  | .ok (_, some .write) => some inc.conn
  | _ => none

/-- The calls of a bare status. -/
def Says (status : Status) (buf : Nat) (calls : List Call) : Prop :=
  ∃ token, calls = [.statusStr status.code, .responseStatus buf token []]

/-- The calls that answer a request, after these changes. -/
inductive Answers (cs : List (Change String Bytes)) (inc : Incoming (Request ε)) : List Call → Prop
  | unread {e : ε} : inc.request.parsed = .error e → Answers cs inc []
  | created {p : String} {calls : List Call} :
      inc.request.parsed = .ok (p, some .write) → Says .created inc.buf calls → Answers cs inc calls
  | deleted {p : String} {v : Bytes} {calls : List Call} : inc.request.parsed = .ok (p, some .delete) → Holds cs p v →
      Says .noContent inc.buf calls → Answers cs inc calls
  | nothing {p : String} {calls : List Call} : inc.request.parsed = .ok (p, some .delete) → (∀ v, ¬ Holds cs p v) →
      Says .notFound inc.buf calls → Answers cs inc calls
  | found {p : String} {m : Option Method} {v : Bytes} : inc.request.parsed = .ok (p, m) → m ≠ some .write →
      m ≠ some .delete → Holds cs p v → Answers cs inc [.responseOk inc.buf v]
  | absent {p : String} {m : Option Method} {calls : List Call} : inc.request.parsed = .ok (p, m) → m ≠ some .write →
      m ≠ some .delete → (∀ v, ¬ Holds cs p v) → Says .notFound inc.buf calls → Answers cs inc calls

/-! ## One request -/

section Handler

variable {r : Responder} {w : World Call Ret Flags}

/-- The calls of a program that starts with the claim, on a responder not used yet. -/
theorem calls_claim_free {α : Type} {f : Unit → Prog ε α} {cs : List (Call × Ret)} (hw : w.objs.used r.id = false)
    (h : ∀ v : World Call Ret Flags, v.log = w.log → v.ret = w.ret → (after (f ()) v).log = v.log ++ cs) :
    (after (r.claim >>= f) w).log = w.log ++ cs := by
  rw [after_bind_ok (claim_free hw)]
  exact h _ rfl rfl

/-- What follows a checked call makes no other. -/
theorem calls_checked (c : Call) (reply : Reply) (v : World Call Ret Flags) :
    after (do let _ ← checked c; return reply : Prog ε Reply) v = v.called c := by
  rw [after_bind_pure]
  exact after_checkedCall c id v

theorem calls_ok (hw : w.objs.used r.id = false) (value : Bytes) :
    (after (Op.run r (.terminal (.ok (.ok value))) : Prog ε (Option Reply)) w).log =
      w.log ++ [(.responseOk r.buf value, w.ret w.log.length)] := by
  unfold Op.run Terminal.run
  rw [after_map]
  refine calls_claim_free hw fun v hl hr => ?_
  rw [after_bind_ok (arg_ok value v), calls_checked, World.called_log, hl, hr]

/-- The token is asked for first. -/
theorem calls_status (hw : w.objs.used r.id = false) (status : Status) :
    ∃ token, (after (Op.run r (.terminal (.status (.member status) Responder.noBody)) : Prog ε (Option Reply)) w).log =
      w.log ++ [(.statusStr status.code, w.ret w.log.length),
        (.responseStatus r.buf token [], w.ret (w.log.length + 1))] := by
  refine ⟨if (w.ret w.log.length).rc = 0 then utf8 ("status-" ++ toString status.code) else (w.ret w.log.length).data,
    ?_⟩
  unfold Op.run Terminal.run
  rw [after_map]
  refine calls_claim_free hw fun v hl hr => ?_
  have htoken : (StatusArg.encode (.member status) : Prog ε Bytes) v =
      .ok (if (v.ret v.log.length).rc = 0 then utf8 ("status-" ++ toString status.code) else (v.ret v.log.length).data)
        (v.called (.statusStr status.code)) := bind_of_ok (call_ok _ v) _
  have hbody : (arg Responder.noBody : Prog ε Bytes) (v.called (.statusStr status.code)) =
      .ok [] (v.called (.statusStr status.code)) := arg_ok [] _
  rw [after_bind_ok htoken, after_bind_ok hbody, calls_checked, World.called_log, World.called_log, hl, hr]
  simp [World.called, hr]

theorem says_bare (hw : w.objs.used r.id = false) (status : Status) :
    ∃ calls, (play r (bare status : Script ε).ops w).world.log = w.log ++ calls ∧
      Says status r.buf (calls.map Prod.fst) := by
  obtain ⟨token, ht⟩ := calls_status (ε := ε) hw status
  rw [bare, play_single]
  exact ⟨_, ht, token, rfl⟩

variable {s : State} {inc : Incoming (Request ε)} {p : String} {m : Option Method}

/-- The ways through the handler. -/
inductive Handled (s : State) (inc : Incoming (Request ε)) : State × Script ε → Prop
  | unread {e : ε} : inc.request.parsed = .error e → Handled s inc (s, ⟨[], some (.raised e)⟩)
  | write {p : String} : inc.request.parsed = .ok (p, some .write) →
      Handled s inc (⟨Function.update s.store p (some inc.request.body), s.toNotify ++ [inc.conn]⟩, bare .created)
  | delete {p : String} {v : Bytes} : inc.request.parsed = .ok (p, some .delete) → s.store p = some v →
      Handled s inc ({ s with store := Function.update s.store p none }, bare .noContent)
  | miss {p : String} : inc.request.parsed = .ok (p, some .delete) → s.store p = none →
      Handled s inc (s, bare .notFound)
  | read {p : String} {m : Option Method} {v : Bytes} : inc.request.parsed = .ok (p, m) → m ≠ some .write →
      m ≠ some .delete → s.store p = some v → Handled s inc (s, ⟨[.terminal (.ok (.ok v))], none⟩)
  | absent {p : String} {m : Option Method} : inc.request.parsed = .ok (p, m) → m ≠ some .write → m ≠ some .delete →
      s.store p = none → Handled s inc (s, bare .notFound)

theorem handler_cases (s : State) (inc : Incoming (Request ε)) : Handled s inc (handler s inc) := by
  unfold handler
  cases hp : inc.request.parsed with
  | error e => exact .unread hp
  | ok pm =>
    obtain ⟨p, m⟩ := pm
    have hother : m ≠ some .write → m ≠ some .delete → Handled s inc (match s.store p with
        | some value => (s, ⟨[.terminal (.ok (.ok value))], none⟩)
        | none => (s, bare .notFound)) := by
      intro hw hd
      cases hv : s.store p with
      | some v => exact .read hp hw hd hv
      | none => exact .absent hp hw hd hv
    rcases m with _ | _ | _ | _ | _ | _ | _
    case some.write => exact .write hp
    case some.delete =>
      simp only
      cases hv : s.store p with
      | some v => exact .delete hp hv
      | none => exact .miss hp hv
    all_goals exact hother (by decide) (by decide)

theorem change_other (hp : inc.request.parsed = .ok (p, m)) (hw : m ≠ some .write) (hd : m ≠ some .delete) :
    change inc = none ∧ writer inc = none := by
  unfold change writer
  rw [hp]
  rcases m with _ | _ | _ | _ | _ | _ | _ <;> first | exact ⟨rfl, rfl⟩ | exact absurd rfl hw | exact absurd rfl hd

/-- The handler keeps its table as the changes make it, and notes the connections that wrote. -/
theorem Handled.kept {cs : List (Change String Bytes)} {out : State × Script ε} (h : Handled s inc out)
    (hs : s.store = replay cs) :
    out.1.store = replay (cs ++ (change inc).toList) ∧ out.1.toNotify = s.toNotify ++ (writer inc).toList := by
  cases h with
  | unread hp => simp [change, writer, hp, hs]
  | write hp => simp [change, writer, hp, hs, Change.apply]
  | delete hp _ => simp [change, writer, hp, hs, Change.apply]
  | miss hp hv =>
    -- erasing a path that is not there leaves the table as it is
    rw [hs] at hv
    simp [change, writer, hp, hs, Change.apply, hv]
  | read hp hw hd _ | absent hp hw hd _ =>
    obtain ⟨hc, hn⟩ := change_other hp hw hd
    simp [hc, hn, hs]

/-- The responder of a request is a new one. -/
theorem found_free (server : Nat) (s : Node State) (inc : Incoming (Request ε)) :
    s.found.objs.used (s.responder server inc).id = false := Function.update_self ..

/-- Its calls answer the request. -/
theorem Handled.answers {server : Nat} {cs : List (Change String Bytes)} {s : Node State} {out : State × Script ε}
    (h : Handled s.state inc out) (hs : s.state.store = replay cs) :
    ∃ calls, (play (s.responder server inc) out.2.ops s.found).world.log = s.host.world.log ++ calls ∧
      Answers cs inc (calls.map Prod.fst) := by
  have hfree := found_free server s inc
  have hbare : ∀ status, (∀ calls, Says status inc.buf calls → Answers cs inc calls) →
      ∃ calls,
        (play (s.responder server inc) (bare status : Script ε).ops s.found).world.log = s.host.world.log ++ calls ∧
        Answers cs inc (calls.map Prod.fst) := by
    intro status hle
    obtain ⟨calls, hl, hsays⟩ := says_bare (ε := ε) hfree status
    exact ⟨calls, hl, hle _ hsays⟩
  cases h with
  | unread hp => exact ⟨[], (List.append_nil _).symm, .unread hp⟩
  | write hp => exact hbare _ fun _ => .created hp
  | delete hp hv =>
    rw [hs, replay_eq_some] at hv
    exact hbare _ fun _ => .deleted hp hv
  | miss hp hv =>
    rw [hs, replay_eq_none] at hv
    exact hbare _ fun _ => .nothing hp hv
  | read hp hw hd hv =>
    rw [hs, replay_eq_some] at hv
    rw [play_single]
    exact ⟨_, calls_ok hfree _, .found hp hw hd hv⟩
  | absent hp hw hd hv =>
    rw [hs, replay_eq_none] at hv
    exact hbare _ fun _ => .absent hp hw hd hv

end Handler

/-! ## Runs -/

section Run

variable {server : Nat} {kind : ε → Raised} {ret : Nat → Ret} {pre as : List (Act ε)} {s s' : Loop} {a : Act ε}

/-- The requests served along a run, each with its calls. -/
def log (server : Nat) (kind : ε → Raised) (ret : Nat → Ret) (as : List (Act ε)) :
    List (Incoming (Request ε) × List Call) := observed (step server kind) (served server) (init ret) as

def changes (served : List (Incoming (Request ε) × List Call)) : List (Change String Bytes) :=
  served.filterMap fun x => change x.1

def writers (served : List (Incoming (Request ε) × List Call)) : List Nat := served.filterMap fun x => writer x.1

/-- What a run has done so far. -/
structure Faithful (server : Nat) (kind : ε → Raised) (ret : Nat → Ret) (pre : List (Act ε)) (s : Loop) : Prop where
  store : s.node.state.store = replay (changes (log server kind ret pre))
  answers : Each (fun before x => Answers (changes before) x.1 x.2) (log server kind ret pre)
  notified : s.notified ++ s.pc.pending ++ s.node.state.toNotify = writers (log server kind ret pre)

theorem init_faithful : Faithful server kind ret ([] : List (Act ε)) (init ret) := ⟨rfl, each_nil, rfl⟩

/-- A step that serves no request. -/
theorem Faithful.frame (hf : Faithful server kind ret pre s) (hr : runs (step server kind) (init ret) pre = some s)
    (h : step server kind s a = some s') (hserved : served server s a = none)
    (hstore : s'.node.state.store = s.node.state.store)
    (hnotified : s'.notified ++ s'.pc.pending ++ s'.node.state.toNotify =
      s.notified ++ s.pc.pending ++ s.node.state.toNotify) :
    Faithful server kind ret (pre ++ [a]) s' := by
  have hlog : log server kind ret (pre ++ [a]) = log server kind ret pre := by
    unfold log
    rw [observed_concat hr h, hserved, Option.toList_none, List.append_nil]
  exact ⟨by rw [hlog, hstore, hf.store], by rw [hlog]; exact hf.answers, by rw [hlog, hnotified, hf.notified]⟩

theorem faithful_request {inc : Incoming (Request ε)} {n : Node State} (hf : Faithful server kind ret pre s)
    (hr : runs (step server kind) (init ret) pre = some s)
    (hn : s.node.step server kind handler inc = some n)
    (h : step server kind s (.request inc) = some { s with node := n }) :
    Faithful server kind ret (pre ++ [.request inc]) { s with node := n } := by
  have hstate : n.state = (handler s.node.state inc).1 := by
    obtain ⟨host, -, rfl⟩ := Option.map_eq_some_iff.1 hn
    rfl
  have hcases := handler_cases s.node.state inc
  obtain ⟨calls, hcalls, hanswers⟩ : ∃ calls, (play (s.node.responder server inc) _ s.node.found).world.log =
      s.node.host.world.log ++ calls ∧ Answers (changes (log server kind ret pre)) inc (calls.map Prod.fst) :=
    hcases.answers hf.store
  obtain ⟨hstore, hnoted⟩ := hcases.kept hf.store
  have hserved : served server s (.request inc) = some (inc, calls.map Prod.fst) := by
    unfold served Node.played
    simp only
    rw [hcalls, List.drop_left]
  have hlog : log server kind ret (pre ++ [.request inc]) = log server kind ret pre ++ [(inc, calls.map Prod.fst)] := by
    unfold log
    rw [observed_concat hr h, hserved]; rfl
  have hchanges : changes (log server kind ret (pre ++ [.request inc])) =
      changes (log server kind ret pre) ++ (change inc).toList := by
    unfold changes
    rw [hlog, List.filterMap_append]
    cases hc : change inc <;> simp [hc]
  have hwriters : writers (log server kind ret (pre ++ [.request inc])) =
      writers (log server kind ret pre) ++ (writer inc).toList := by
    unfold writers
    rw [hlog, List.filterMap_append]
    cases hc : writer inc <;> simp [hc]
  refine ⟨?_, ?_, ?_⟩
  · rw [hchanges, ← hstore, hstate]
  · rw [hlog]
    exact hf.answers.concat hanswers
  · show s.notified ++ s.pc.pending ++ n.state.toNotify = _
    rw [hwriters, ← hf.notified, hstate, hnoted, List.append_assoc _ _ (writer inc).toList]

theorem faithful_step (hf : Faithful server kind ret pre s) (hr : runs (step server kind) (init ret) pre = some s)
    (h : step server kind s a = some s') : Faithful server kind ret (pre ++ [a]) s' := by
  have hstep := h
  cases a with
  | request inc =>
    simp only [step] at h
    split at h
    · obtain ⟨n, hn, rfl⟩ := Option.map_eq_some_iff.1 h
      exact faithful_request hf hr hn hstep
    · cases h
  | tick r =>
    simp only [step] at h
    split at h
    · rename_i hpc
      cases h
      exact hf.frame hr hstep rfl rfl (by simp [hpc, Pc.pending])
    · rename_i hpc
      cases h
      exact hf.frame hr hstep rfl rfl (by simp [hpc, Pc.pending])
    · cases h
  | notify r =>
    simp only [step] at h
    split at h
    · rename_i conn pending hpc
      cases h
      refine hf.frame hr hstep rfl rfl ?_
      cases r <;> simp [hpc, Pc.pending]
    · cases h
  | loop stop =>
    simp only [step] at h
    split at h
    · rename_i hpc
      cases h
      refine hf.frame hr hstep rfl rfl ?_
      cases stop <;> simp [hpc, Pc.pending]
    · cases h

/-- On every run of the node, whatever the library returns: each request is answered from the writes and deletes
before it, a read with the value last written under its path and not deleted since; and the connections
notified so far, with the ones noted, are those of the writes, in their order and once for each. -/
theorem latest_served (h : runs (step server kind) (init ret) as = some s) :
    Each (fun before x => Answers (changes before) x.1 x.2) (log server kind ret as) ∧
      s.notified ++ s.pc.pending ++ s.node.state.toNotify = writers (log server kind ret as) := by
  have hf : Faithful server kind ret as s := runs_history init_faithful (fun _ _ _ _ hr hj h => faithful_step hj hr h) h
  exact ⟨hf.answers, hf.notified⟩

/-- A write, its notification, and a read. -/
def writeAndRead : List (Act Unit) :=
  [.request ⟨100, 2, 3, ⟨.ok (some .write), .ok (some "/greeting"), [104, 105]⟩, .ok (), .ok ()⟩, .tick (.ok ()),
    .notify (.ok ()), .loop false,
    .request ⟨101, 4, 3, ⟨.ok (some .read), .ok (some "/greeting"), []⟩, .ok (), .ok ()⟩]

theorem latest_served_write : ∃ s write read,
    runs (step 1 fun _ => .exception) (init fun _ => ⟨0, 0, []⟩) writeAndRead = some s ∧
    log 1 (fun _ => .exception) (fun _ => ⟨0, 0, []⟩) writeAndRead = [write, read] ∧
    (write.2 = [.statusStr 1, .responseStatus 100 (utf8 "status-1") []] ∧
      Answers (changes (ε := Unit) []) write.1 write.2) ∧
    (read.2 = [.responseOk 101 [104, 105]] ∧ Answers (changes [write]) read.1 read.2) ∧
    s.notified ++ s.pc.pending ++ s.node.state.toNotify = writers [write, read] := by
  have h : runs (step 1 fun _ => .exception) (init fun _ => ⟨0, 0, []⟩) writeAndRead = some _ := rfl
  obtain ⟨hanswers, hnotified⟩ := latest_served h
  exact ⟨_, _, _, h, rfl, ⟨rfl, hanswers [] _ [_] rfl⟩, ⟨rfl, hanswers [_] _ [] rfl⟩, hnotified⟩

end Run

end Kv

end Nwep.Server
