/-
The key-value node and any number of managed clients of it: the server's thread, the clients' owner threads,
the event loops and the callers of `AsyncClient.send` take their steps in any order. Between the two sides is the
library, of which two things are taken: each request that a client passed to it reaches the node at most once,
and a response is the one built for its request, unless it has the error status.

Every history of the calls is linearizable. A call takes effect where the node handles its request, which is
after the call was made and before it returned.
-/
import Nwep.Lib.Linear
import Nwep.Runtime.ConnectAsync.Routing
import Nwep.Server.Kv

namespace Nwep.Server.Kv.Clients

open Lib
open Nwep.Runtime

/-! ## The table as an object -/

/-- What `AsyncClient.send` is asked. -/
abbrev Query := ConnectAsync.Request

/-- A response as the client reads it, its status by the code. -/
structure Response where
  status : Nat
  body : Bytes
deriving Repr, DecidableEq

abbrev Table := String → Option Bytes

section Object

-- what the node reads as the path and the method of a query
variable (read : Query → String × Option Method)

/-- The change that a query makes to the table. -/
def changeOf (q : Query) : Option (Change String Bytes) :=
  match read q with
  | (path, some .write) => some ⟨path, some q.body⟩
  | (path, some .delete) => some ⟨path, none⟩
  | _ => none

def apply (t : Table) (q : Query) : Table := (changeOf read q).elim t (·.apply t)

def reply (t : Table) (q : Query) : Response :=
  match read q with
  | (_, some .write) => ⟨Status.created.code, []⟩
  | (path, some .delete) => ⟨if (t path).isSome then Status.noContent.code else Status.notFound.code, []⟩
  | (path, _) => (t path).elim ⟨Status.notFound.code, []⟩ fun value => ⟨Status.ok.code, value⟩

/-- A response with the error status tells nothing of the table. -/
def Right (t : Table) (q : Query) (a : Response) : Prop := a = reply read t q ∨ a.status = Status.error.code

end Object

/-- The response that the calls of a handler built in their buffer. -/
def built : List Call → Option Response
  | [.responseOk _ body] => some ⟨Status.ok.code, body⟩
  | [.statusStr code, .responseStatus _ _ body] => some ⟨code, body⟩
  | _ => none

/-! ## The node and its clients -/

/-- A client, and one of its calls. -/
abbrev Key := Nat × Nat

/-- `handled` are the requests that reached the node, each with the response built for it. -/
structure State (δ : Type) where
  node : Loop
  clients : Nat → ConnectAsync.State δ Response
  handled : List (Key × Query × Option Response)

inductive Act (ε δ : Type) where
  | node (a : Kv.Act ε)
  | arrive (k : Nat) (c : Cmd Query) (inc : Incoming (Request ε))
  | client (k : Nat) (a : ConnectAsync.Act δ Response)

variable {ε δ : Type}

section Step

variable (server : Nat) (kind : ε → Raised) (read : Query → String × Option Method)

def step (s : State δ) : Act ε δ → Option (State δ)
  | .node a => (Kv.step server kind s.node a).map fun n => { s with node := n }
  | .arrive k c inc =>
    (Kv.step server kind s.node (.request inc)).map fun n =>
      { s with
        node := n
        handled := s.handled ++
          [((k, c.id), c.payload, (served server s.node (.request inc)).bind fun x => built x.2)] }
  | .client k a =>
    (ConnectAsync.step (s.clients k) a).map fun c => { s with clients := Function.update s.clients k c }

def init (ret : Nat → Ret) : State δ := ⟨Kv.init ret, fun _ => ConnectAsync.init, []⟩

/-- What the library carries. Nobody but the clients sends requests. -/
def Carried (s : State δ) : Act ε δ → Prop
  | .node (.request _) => False
  | .arrive k c inc =>
    c ∈ (s.clients k).executed ∧ (k, c.id) ∉ s.handled.map Prod.fst ∧
      inc.request.parsed = .ok (read c.payload) ∧ inc.request.body = c.payload.body
  | .client k (.send (.ok v)) =>
    ∀ c, (s.clients k).pc = .send c →
      ∃ b, ((k, c.id), c.payload, b) ∈ s.handled ∧ (b = some v ∨ v.status = Status.error.code)
  | _ => True

/-- The result that the next callback on the loop `l` sets. -/
def returned (b : Bridge Query (Exc δ) Response) (l : Nat) : Option (Nat × Response) :=
  match b.ready.find? (·.loop == l) with
  | some x => match b.futs x.id, x.outcome with
    | .pending, .ok v => some (x.id, v)
    | _, _ => none
  | none => none

/-- A call is made with its command, and returns when its future has the result. -/
def shows (s : State δ) : Act ε δ → Option (Event Key Query Response)
  | .arrive k c _ => some (.effect (k, c.id) c.payload)
  | .client k (.put c) => some (.call (k, c.id) c.payload)
  | .client k (.runLoop l) => (returned (s.clients k).bridge l).map fun x => .ret (k, x.1) x.2
  | _ => none

end Step

/-! ## The node -/

section Node

variable {server : Nat} {kind : ε → Raised} {read : Query → String × Option Method} {cs : List (Change String Bytes)}
  {inc : Incoming (Request ε)} {q : Query} {calls : List Call}

/-- The node's table is the object's. -/
theorem change_eq (hp : inc.request.parsed = .ok (read q)) (hb : inc.request.body = q.body) :
    change inc = changeOf read q := by
  unfold change changeOf
  rw [hp, hb]
  obtain ⟨path, m⟩ := read q
  rcases m with _ | _ | _ | _ | _ | _ | _ <;> rfl

theorem built_status {status : Status} {buf : Nat} (h : Says status buf calls) :
    built calls = some ⟨status.code, []⟩ := by
  obtain ⟨token, rfl⟩ := h; rfl

/-- The node answers as the object does. -/
theorem built_answers (h : Answers cs inc calls) (hp : inc.request.parsed = .ok (read q)) :
    built calls = some (reply read (replay cs) q) := by
  unfold reply
  generalize read q = pm at hp ⊢
  cases h with
  | unread he => rw [hp] at he; cases he
  | created hw hs =>
    rw [hp] at hw
    cases hw
    exact built_status hs
  | deleted hd hv hs =>
    rw [hp] at hd
    cases hd
    rw [built_status hs]
    simp only [replay_eq_some.2 hv]; rfl
  | nothing hd hn hs =>
    rw [hp] at hd
    cases hd
    rw [built_status hs]
    simp only [replay_eq_none.2 hn]; rfl
  | @found p m v hm hw hd hv =>
    rw [hp] at hm
    cases hm
    simp only [replay_eq_some.2 hv]
    rcases m with _ | _ | _ | _ | _ | _ | _ <;> rfl
  | @absent p m _ hm hw hd hn hs =>
    rw [hp] at hm
    cases hm
    rw [built_status hs]
    simp only [replay_eq_none.2 hn]
    rcases m with _ | _ | _ | _ | _ | _ | _ <;> rfl

/-- The object's state is the table after the changes. -/
theorem stateAfter_eq (l : List (Key × Query)) :
    stateAfter (apply read) (fun _ => none) l = replay (l.filterMap fun x => changeOf read x.2) := by
  induction l using List.reverseRecOn with
  | nil => rfl
  | append_singleton l x ih =>
    rw [stateAfter_concat, ih, List.filterMap_append]
    unfold apply
    cases hc : changeOf read x.2 with
    | none => simp [hc]
    | some c => simp [hc]

/-- A request that reaches the node takes effect on its table, and is answered by it. -/
theorem request_step {s n : Loop} {l : List (Key × Query)} (h : Kv.step server kind s (.request inc) = some n)
    (ht : s.node.state.store = stateAfter (apply read) (fun _ => none) l)
    (hp : inc.request.parsed = .ok (read q)) (hb : inc.request.body = q.body) :
    n.node.state.store = apply read (stateAfter (apply read) (fun _ => none) l) q ∧
      ((served server s (.request inc)).bind fun x => built x.2) =
        some (reply read (stateAfter (apply read) (fun _ => none) l) q) := by
  rw [stateAfter_eq] at ht ⊢
  simp only [Kv.step] at h
  split at h
  swap
  · cases h
  obtain ⟨node, hn, rfl⟩ := Option.map_eq_some_iff.1 h
  have hcases := handler_cases s.node.state inc
  obtain ⟨hstore, -⟩ := hcases.kept ht
  obtain ⟨calls, hcalls, hanswers⟩ : ∃ calls, (play (s.node.responder server inc) _ s.node.found).world.log =
      s.node.host.world.log ++ calls ∧ Answers _ inc (calls.map Prod.fst) := hcases.answers ht
  have hstate : node.state = (handler s.node.state inc).1 := by
    obtain ⟨host, -, rfl⟩ := Option.map_eq_some_iff.1 hn
    rfl
  constructor
  · show node.state.store = _
    rw [hstate, hstore, change_eq hp hb]
    unfold apply
    cases changeOf read q <;> simp
  · have hserved : served server s (.request inc) = some (inc, calls.map Prod.fst) := by
      unfold served Node.played
      simp only
      rw [hcalls, List.drop_left]
    rw [hserved]
    exact built_answers hanswers hp

/-- The node's own steps leave the table alone. -/
theorem node_step {s n : Loop} {a : Kv.Act ε} (ha : ∀ inc, a ≠ .request inc) (h : Kv.step server kind s a = some n) :
    n.node.state.store = s.node.state.store := by
  cases a with
  | request inc => exact absurd rfl (ha inc)
  | tick r | notify r | loop r =>
    simp only [Kv.step] at h
    split at h <;> cases h <;> rfl

end Node

/-! ## A client -/

section Client

variable {c c' : ConnectAsync.State δ Response} {b b' : Bridge Query (Exc δ) Response} {l i : Nat} {v : Response}

theorem runLoop_returned (h : b.runLoop l = some b') (i : Nat) (v : Response) :
    (i, .ok v) ∈ b'.completed ↔ (i, .ok v) ∈ b.completed ∨ returned b l = some (i, v) := by
  unfold Bridge.runLoop at h
  split at h
  · cases h
  split at h
  · cases h
  rename_i x hx
  cases h
  unfold returned
  rw [hx]
  unfold Bridge.runCallback Fut.settle Fut.set
  simp only
  -- only a pending future is completed
  cases hf : b.futs x.id with
  | pending =>
    cases ho : x.outcome with
    | ok v' => simp [eq_comm]
    | error e => simp
  | cancelled => simp
  | done o => simp

/-- The result a future gets is one that `client.send` returned. -/
theorem returned_outcome (hi : ConnectAsync.Inv c) (h : returned c.bridge l = some (i, v)) :
    (i, .ok v) ∈ c.outcomes := by
  unfold returned at h
  split at h
  swap
  · cases h
  rename_i x hx
  have hanswer := hi.answers x (hi.bridge.readySub.subset (List.mem_of_find?_eq_some hx))
  split at h
  · rename_i v' _ hv
    cases h
    rw [hv] at hanswer
    rcases hanswer with hout | ⟨-, hne⟩
    · exact hout
    · cases hne
  · cases h

/-- What a step does to the commands put, to what `client.send` gave and to the futures completed. -/
inductive Moves (c : ConnectAsync.State δ Response) :
    ConnectAsync.Act δ Response → ConnectAsync.State δ Response → Prop where
  | put {d : Cmd Query} {c'} : c'.bridge.sent = c.bridge.sent ++ [d] → d.id ∉ c.bridge.sent.map Cmd.id →
      c'.outcomes = c.outcomes → c'.bridge.completed = c.bridge.completed → Moves c (.put d) c'
  | send {d : Cmd Query} {r : Except δ Response} {c'} : c.pc = .send d →
      c'.outcomes = c.outcomes ++ [(d.id, r.mapError .raised)] → c'.bridge.sent = c.bridge.sent →
      c'.bridge.completed = c.bridge.completed → Moves c (.send r) c'
  | runLoop {l : Nat} {c'} : (∀ i v, (i, .ok v) ∈ c'.bridge.completed ↔
        (i, .ok v) ∈ c.bridge.completed ∨ returned c.bridge l = some (i, v)) →
      c'.outcomes = c.outcomes → c'.bridge.sent = c.bridge.sent → Moves c (.runLoop l) c'
  | quiet {a : ConnectAsync.Act δ Response} {c'} : (∀ d, a ≠ .put d) → (∀ l, a ≠ .runLoop l) →
      c'.outcomes = c.outcomes → c'.bridge.sent = c.bridge.sent → c'.bridge.completed = c.bridge.completed →
        Moves c a c'

theorem step_moves {a : ConnectAsync.Act δ Response} (h : ConnectAsync.Step c a c') : Moves c a c' := by
  have hsent := ConnectAsync.sent_step h
  cases h with
  | put hm hb =>
    refine .put hsent (Bridge.put_sent hb).2 rfl ?_
    rw [Bridge.put_frame hb]
  | sendOk hp | sendFail hp => exact .send hp rfl rfl rfl
  | runLoop hr => exact .runLoop (runLoop_returned hr) rfl (hsent.trans (List.append_nil _))
  | take hp hb | takeStop hp hb | drain hp hb | drainStop hp hb =>
    obtain ⟨q, -, rfl⟩ := Bridge.get_some hb
    exact .quiet (by rintro d ⟨⟩) (by rintro l ⟨⟩) rfl (hsent.trans (List.append_nil _)) rfl
  | resolve hp hb | reject hp hb | drainReject hp hb =>
    obtain ⟨-, rfl⟩ := Bridge.callSoon_some hb
    exact .quiet (by rintro d ⟨⟩) (by rintro l ⟨⟩) rfl rfl rfl
  | _ => exact .quiet (by rintro d ⟨⟩) (by rintro l ⟨⟩) rfl (hsent.trans (List.append_nil _)) rfl

end Client

/-! ## The invariant -/

abbrev History := List (Event Key Query Response)

/-- The marks of the client `k` are those of its commands and of its futures, and a response it got was built for
its request, or has the error status. -/
structure Client (tr : History) (handled : List (Key × Query × Option Response)) (k : Nat)
    (c : ConnectAsync.State δ Response) : Prop where
  inv : ConnectAsync.Inv c
  calls : ∀ i q, .call (k, i) q ∈ tr ↔ ∃ d ∈ c.bridge.sent, d.id = i ∧ d.payload = q
  returns : ∀ i v, .ret (k, i) v ∈ tr ↔ (i, .ok v) ∈ c.bridge.completed
  outcomes : ∀ i v, (i, .ok v) ∈ c.outcomes →
    ∃ q b, ((k, i), q, b) ∈ handled ∧ (b = some v ∨ v.status = Status.error.code)

/-- The object's state where the requests took effect. -/
abbrev tableAfter (read : Query → String × Option Method) (l : List (Key × Query)) : Table :=
  stateAfter (apply read) (fun _ => none) l

/-- The requests handled, without what was built for them. -/
def queries (handled : List (Key × Query × Option Response)) : List (Key × Query) := handled.map fun x => (x.1, x.2.1)

structure Ok (read : Query → String × Option Method) (tr : History) (s : State δ) : Prop where
  client : ∀ k, Client tr s.handled k (s.clients k)
  order : effects tr = queries s.handled
  table : s.node.node.state.store = tableAfter read (effects tr)
  answers :
    Each (fun before x => ∀ v, x.2.2 = some v → v = reply read (tableAfter read (queries before)) x.2.1) s.handled
  placed : Each (Placed (apply read) (Right read) (fun _ => none)) tr

section Invariant

variable {server : Nat} {kind : ε → Raised} {read : Query → String × Option Method} {tr : History} {k : Nat}
  {handled : List (Key × Query × Option Response)} {c c' : ConnectAsync.State δ Response} {s s' : State δ}
  {m : Option (Event Key Query Response)}

theorem init_ok (ret : Nat → Ret) : Ok read [] (init ret : State δ) where
  client k := by
    refine ⟨ConnectAsync.init_inv, fun i q => ?_, fun i v => ?_, fun i v h => absurd h List.not_mem_nil⟩
    · exact iff_of_false List.not_mem_nil fun ⟨d, hd, _⟩ => absurd hd List.not_mem_nil
    · exact iff_of_false List.not_mem_nil List.not_mem_nil
  order := rfl
  table := rfl
  answers := each_nil
  placed := each_nil

/-- A mark that is none of the client's own changes nothing for it, and neither does a further request. -/
theorem Client.other (hc : Client tr handled k c) (hcall : ∀ i q, m ≠ some (.call (k, i) q))
    (hret : ∀ i v, m ≠ some (.ret (k, i) v)) (more : List (Key × Query × Option Response)) :
    Client (tr ++ m.toList) (handled ++ more) k c where
  inv := hc.inv
  calls i q := by
    rw [List.mem_append, Option.mem_toList, ← hc.calls]
    exact or_iff_left (hcall i q)
  returns i v := by
    rw [List.mem_append, Option.mem_toList, ← hc.returns]
    exact or_iff_left (hret i v)
  outcomes i v h := by
    obtain ⟨q, b, hb, hv⟩ := hc.outcomes i v h
    exact ⟨q, b, List.mem_append_left _ hb, hv⟩

/-- A client moves, and its step is marked or not. -/
theorem Ok.move (ho : Ok read tr s) (heff : effects m.toList = [])
    (hplaced : ∀ x, m = some x → Placed (apply read) (Right read) (fun _ => none) tr x)
    (hself : Client (tr ++ m.toList) s.handled k c')
    (hother : ∀ j ≠ k, (∀ i q, m ≠ some (.call (j, i) q)) ∧ ∀ i v, m ≠ some (.ret (j, i) v)) :
    Ok read (tr ++ m.toList) { s with clients := Function.update s.clients k c' } where
  client := by
    refine (Function.forall_update_iff _ fun j c => Client (tr ++ m.toList) s.handled j c).2 ⟨hself, fun j hj => ?_⟩
    have h := (ho.client j).other (hother j hj).1 (hother j hj).2 []
    rwa [List.append_nil] at h
  order := by rw [effects_append, heff, List.append_nil]; exact ho.order
  table := by rw [effects_append, heff, List.append_nil]; exact ho.table
  answers := ho.answers
  placed := by
    cases m with
    | none => rw [Option.toList_none, List.append_nil]; exact ho.placed
    | some x => exact ho.placed.concat (hplaced x rfl)

/-- A result that a client returned was right where its request took effect. -/
theorem Ok.right {i : Nat} {v : Response} (ho : Ok read tr s) (h : (i, .ok v) ∈ (s.clients k).outcomes) :
    Placed (apply read) (Right read) (fun _ => none) tr (.ret (k, i) v) := by
  obtain ⟨q, b, hb, hv⟩ := (ho.client k).outcomes i v h
  obtain ⟨before, later, hsplit⟩ := List.append_of_mem hb
  refine ⟨queries before, q, queries later, ?_, ?_⟩
  · rw [ho.order, hsplit]
    unfold queries
    rw [List.map_append, List.map_cons]
  · rcases hv with rfl | herr
    · exact .inl (ho.answers before _ later hsplit v rfl)
    · exact .inr herr

theorem ok_client {a : ConnectAsync.Act δ Response} (ho : Ok read tr s)
    (hf : Carried (ε := ε) read s (.client k a)) (h : ConnectAsync.Step (s.clients k) a c') :
    Ok read (tr ++ (shows s (.client k a : Act ε δ)).toList) { s with clients := Function.update s.clients k c' } := by
  have hc := ho.client k
  have hinv := ConnectAsync.inv_step hc.inv h
  cases step_moves h with
  | @put d _ hsent hnew hout hdone =>
    have hcalls : ∀ i q, Event.call (k, i) q ∈ tr ++ [.call (k, d.id) d.payload] ↔
        ∃ e ∈ c'.bridge.sent, e.id = i ∧ e.payload = q := by
      intro i q
      rw [hsent, List.mem_append, hc.calls]
      simp only [List.mem_singleton, Event.call.injEq, Prod.mk.injEq, true_and, List.mem_append, or_and_right,
        exists_or, exists_eq_left, eq_comm (a := i), eq_comm (a := q)]
    refine ho.move (m := some _) rfl ?_ ⟨hinv, hcalls, fun i v => ?_, fun i v hi => ?_⟩ ?_
    · rintro x ⟨⟩ q hq
      obtain ⟨e, he, hid, -⟩ := (hc.calls _ _).1 hq
      exact hnew (hid ▸ List.mem_map_of_mem he)
    · rw [hdone, ← hc.returns]; simp
    · exact hc.outcomes i v (hout ▸ hi)
    · rintro j hj
      exact ⟨by rintro i q ⟨⟩; exact hj rfl, by rintro i v ⟨⟩⟩
  | @send d r _ hpc hout hsent hdone =>
    refine ho.move (m := none) rfl (by rintro x ⟨⟩) ⟨hinv, fun i q => ?_, fun i v => ?_, fun i v hi => ?_⟩ ?_
    · rw [hsent, ← hc.calls]; simp
    · rw [hdone, ← hc.returns]; simp
    · rw [hout, List.mem_append, List.mem_singleton] at hi
      rcases hi with hi | hi
      · exact hc.outcomes i v hi
      · -- it was just given, for the request in progress
        cases r with
        | error e => cases hi
        | ok v' =>
          cases hi
          obtain ⟨b, hb, hv⟩ := hf d hpc
          exact ⟨_, b, hb, hv⟩
    · rintro j -
      exact ⟨by rintro i q ⟨⟩, by rintro i v ⟨⟩⟩
  | @runLoop l _ hdone hout hsent =>
    have hshows : shows s (.client k (.runLoop l) : Act ε δ) =
        (returned (s.clients k).bridge l).map fun x => .ret (k, x.1) x.2 := rfl
    rw [hshows]
    cases hr : returned (s.clients k).bridge l with
    | none =>
      refine ho.move (m := none) rfl (by rintro x ⟨⟩) ⟨hinv, fun i q => ?_, fun i v => ?_, fun i v hi => ?_⟩ ?_
      · rw [hsent, ← hc.calls]; simp
      · rw [hdone, hr, ← hc.returns]; simp
      · exact hc.outcomes i v (hout ▸ hi)
      · rintro j -
        exact ⟨by rintro i q ⟨⟩, by rintro i v ⟨⟩⟩
    | some x =>
      obtain ⟨j, v⟩ := x
      have hright := ho.right (returned_outcome hc.inv hr)
      refine ho.move (m := some _) rfl ?_ ⟨hinv, fun i q => ?_, fun i u => ?_, fun i u hi => ?_⟩ ?_
      · rintro x ⟨⟩; exact hright
      · rw [hsent, ← hc.calls]; simp
      · rw [hdone, hr, ← hc.returns]; simp [eq_comm]
      · exact hc.outcomes i u (hout ▸ hi)
      · rintro n hn
        exact ⟨by rintro i q ⟨⟩, by rintro i u ⟨⟩; exact hn rfl⟩
  | quiet hput hloop hout hsent hdone =>
    have hshows : shows s (.client k a : Act ε δ) = none := by
      cases a with
      | put d => exact absurd rfl (hput d)
      | runLoop l => exact absurd rfl (hloop l)
      | _ => rfl
    rw [hshows]
    refine ho.move (m := none) rfl (by rintro x ⟨⟩) ⟨hinv, fun i q => ?_, fun i v => ?_, fun i v hi => ?_⟩ ?_
    · rw [hsent, ← hc.calls]; simp
    · rw [hdone, ← hc.returns]; simp
    · exact hc.outcomes i v (hout ▸ hi)
    · rintro j -
      exact ⟨by rintro i q ⟨⟩, by rintro i v ⟨⟩⟩

/-- A request reaches the node. -/
theorem ok_arrive {d : Cmd Query} {inc : Incoming (Request ε)} {n : Loop} (ho : Ok read tr s)
    (hf : Carried read s (.arrive k d inc : Act ε δ)) (h : Kv.step server kind s.node (.request inc) = some n) :
    Ok read (tr ++ [.effect (k, d.id) d.payload])
      { s with
        node := n
        handled := s.handled ++
          [((k, d.id), d.payload, (served server s.node (.request inc)).bind fun x => built x.2)] } := by
  obtain ⟨hexec, hnew, hp, hb⟩ := hf
  obtain ⟨hstore, hbuilt⟩ := request_step h ho.table hp hb
  have hc := (ho.client k).inv
  have hsent : d ∈ (s.clients k).bridge.sent := (hc.execTaken.trans (Bridge.taken_prefix _)).subset hexec
  rw [hbuilt]
  refine ⟨fun j => ?_, ?_, ?_, ?_, ?_⟩
  · exact (ho.client j).other (m := some (.effect (k, d.id) d.payload)) (by rintro i q ⟨⟩) (by rintro i v ⟨⟩) _
  · rw [effects_append, ho.order]
    unfold queries
    rw [List.map_append]; rfl
  · rw [effects_append]
    exact hstore.trans (stateAfter_concat _ ((k, d.id), d.payload)).symm
  · refine ho.answers.concat ?_
    rintro v ⟨⟩
    rw [ho.order]
  · refine ho.placed.concat ⟨((ho.client k).calls _ _).2 ⟨d, hsent, rfl, rfl⟩, ?_⟩
    rw [ho.order]
    unfold queries
    rw [List.map_map]
    exact hnew

theorem ok_step {a : Act ε δ} (ho : Ok read tr s) (hf : Carried read s a) (h : step server kind s a = some s') :
    Ok read (tr ++ (shows s a).toList) s' := by
  cases a with
  | node a =>
    simp only [step] at h
    obtain ⟨n, hn, rfl⟩ := Option.map_eq_some_iff.1 h
    have hstore : n.node.state.store = s.node.node.state.store :=
      node_step (fun inc ha => by rw [ha] at hf; exact hf) hn
    have hquiet : shows s (.node a : Act ε δ) = none := rfl
    rw [hquiet, Option.toList_none, List.append_nil]
    exact ⟨ho.client, ho.order, hstore.trans ho.table, ho.answers, ho.placed⟩
  | arrive k d inc =>
    simp only [step] at h
    obtain ⟨n, hn, rfl⟩ := Option.map_eq_some_iff.1 h
    exact ok_arrive ho hf hn
  | client k a =>
    simp only [step] at h
    obtain ⟨c, hc, rfl⟩ := Option.map_eq_some_iff.1 h
    exact ok_client ho hf (ConnectAsync.step_cases hc)

end Invariant

/-! ## The order of one client's requests -/

/-- The calls that `client.send` returned a response to, in the order of the calls. -/
def sentOk (c : ConnectAsync.State δ Response) : List Nat :=
  c.outcomes.filterMap fun x => match x.2 with
    | .ok _ => some x.1
    | .error _ => none

/-- They were handled in that order, and before the request in progress, which the node may have handled too. -/
structure InOrder (keys : List Key) (k : Nat) (c : ConnectAsync.State δ Response) : Prop where
  known : ∀ i, (k, i) ∈ keys → i ∈ c.executed.map Cmd.id
  order : ∃ xs ys, keys = xs ++ ys ∧ ((sentOk c).map fun i => (k, i)).Sublist xs ∧ ∀ d ∈ c.pc.inCall, (k, d.id) ∉ xs

section Order

variable {server : Nat} {kind : ε → Raised} {read : Query → String × Option Method} {tr : History} {k : Nat}
  {keys : List Key} {c c' : ConnectAsync.State δ Response} {s s' : State δ}

theorem sentOk_sublist (c : ConnectAsync.State δ Response) : (sentOk c).Sublist (c.outcomes.map Prod.fst) := by
  unfold sentOk
  generalize c.outcomes = l
  induction l with
  | nil => exact List.Sublist.refl []
  | cons x l ih =>
    obtain ⟨i, r⟩ := x
    cases r with
    | ok v => exact ih.cons_cons i
    | error e => exact ih.cons i

theorem init_inOrder (k : Nat) : InOrder [] k (ConnectAsync.init : ConnectAsync.State δ Response) where
  known _ hi := absurd hi List.not_mem_nil
  order := ⟨[], [], rfl, List.Sublist.refl [], fun _ hd => absurd hd List.not_mem_nil⟩

/-- The owner takes one command at a time. -/
inductive Sends (c : ConnectAsync.State δ Response) :
    ConnectAsync.Act δ Response → ConnectAsync.State δ Response → Prop where
  | take {d : Cmd Query} {c'} : d.id ∉ c.executed.map Cmd.id → c'.pc.inCall = [d] →
      c'.executed = c.executed ++ [d] → sentOk c' = sentOk c → Sends c .owner c'
  | ok {d : Cmd Query} {v : Response} {c'} : c.pc = .send d → c'.pc.inCall = [] → c'.executed = c.executed →
      sentOk c' = sentOk c ++ [d.id] → Sends c (.send (.ok v)) c'
  | rest {a : ConnectAsync.Act δ Response} {c'} : (∀ d ∈ c'.pc.inCall, d ∈ c.pc.inCall) → c'.executed = c.executed →
      sentOk c' = sentOk c → Sends c a c'

theorem step_sends {a : ConnectAsync.Act δ Response} (hi : ConnectAsync.Inv c) (h : ConnectAsync.Step c a c') :
    Sends c a c' := by
  cases h with
  | @take d b hp hb =>
    refine .take ?_ rfl rfl rfl
    rw [hi.execAll (by rw [hp]; rfl)]
    intro hd
    obtain ⟨e, he, hid⟩ := List.mem_map.1 hd
    exact Bridge.get_cmd_new hi.bridge hb e he hid
  | @sendOk d v hp =>
    refine .ok hp rfl rfl ?_
    unfold sentOk
    rw [List.filterMap_append]; rfl
  | @sendFail d e hp =>
    refine .rest (by rintro d ⟨⟩) rfl ?_
    unfold sentOk
    rw [List.filterMap_append]
    exact List.append_nil _
  | _ =>
    refine .rest ?_ rfl rfl
    first
    | exact fun _ h => h
    | rintro d ⟨⟩

/-- A request of the client, or of another, reaches the node. -/
theorem InOrder.arrive (ho : InOrder keys k c) {x : Key} (hx : ∀ i, x = (k, i) → i ∈ c.executed.map Cmd.id) :
    InOrder (keys ++ [x]) k c where
  known i hi := by
    rcases List.mem_append.1 hi with hi | hi
    · exact ho.known i hi
    · exact hx i (List.mem_singleton.1 hi).symm
  order := by
    obtain ⟨xs, ys, hkeys, hsub, hcall⟩ := ho.order
    exact ⟨xs, ys ++ [x], by rw [hkeys, List.append_assoc], hsub, hcall⟩

theorem InOrder.step {a : ConnectAsync.Act δ Response} (ho : InOrder keys k c) (h : Sends c a c')
    (hsent : ∀ d v, c.pc = .send d → a = .send (.ok v) → (k, d.id) ∈ keys) : InOrder keys k c' := by
  obtain ⟨xs, ys, hkeys, hsub, hcall⟩ := ho.order
  cases h with
  | @take d _ hnew hcall' hexec hok =>
    refine ⟨fun i hi => ?_, keys, [], (List.append_nil _).symm, ?_, ?_⟩
    · rw [hexec, List.map_append]
      exact List.mem_append_left _ (ho.known i hi)
    · rw [hok, hkeys]
      exact hsub.trans (List.sublist_append_left xs ys)
    · -- it is new, so the node has not seen it
      intro e he hin
      rw [hcall', List.mem_singleton] at he
      exact hnew (ho.known _ (he ▸ hin))
  | @ok d v _ hp hcall' hexec hok =>
    refine ⟨fun i hi => by rw [hexec]; exact ho.known i hi, keys, [], (List.append_nil _).symm, ?_, ?_⟩
    · -- it was handled after the ones before it
      have hin : (k, d.id) ∈ xs ++ ys := hkeys ▸ hsent d v hp rfl
      have hout : (k, d.id) ∉ xs := hcall d (by rw [hp]; exact List.mem_singleton_self d)
      have hlate : (k, d.id) ∈ ys := (List.mem_append.1 hin).resolve_left hout
      rw [hok, hkeys, List.map_append]
      exact hsub.append (List.singleton_sublist.2 hlate)
    · rw [hcall']
      exact fun e he => absurd he List.not_mem_nil
  | rest hcall' hexec hok =>
    refine ⟨fun i hi => by rw [hexec]; exact ho.known i hi, xs, ys, hkeys, by rw [hok]; exact hsub, ?_⟩
    exact fun e he => hcall e (hcall' e he)

theorem inOrder_step {a : Act ε δ} (hk : Ok read tr s) (ho : ∀ k, InOrder (s.handled.map Prod.fst) k (s.clients k))
    (hf : Carried read s a) (h : step server kind s a = some s') :
    ∀ k, InOrder (s'.handled.map Prod.fst) k (s'.clients k) := by
  cases a with
  | node a =>
    simp only [step] at h
    obtain ⟨n, -, rfl⟩ := Option.map_eq_some_iff.1 h
    exact ho
  | arrive j d inc =>
    simp only [step] at h
    obtain ⟨n, -, rfl⟩ := Option.map_eq_some_iff.1 h
    intro k
    rw [List.map_append]
    refine (ho k).arrive ?_
    rintro i ⟨⟩
    exact List.mem_map_of_mem hf.1
  | client j a =>
    simp only [step] at h
    obtain ⟨c, hc, rfl⟩ := Option.map_eq_some_iff.1 h
    refine (Function.forall_update_iff _ fun k c => InOrder (s.handled.map Prod.fst) k c).2 ⟨?_, fun k _ => ho k⟩
    refine (ho j).step (step_sends (hk.client j).inv (ConnectAsync.step_cases hc)) ?_
    rintro d v hp rfl
    obtain ⟨b, hb, -⟩ := hf d hp
    exact List.mem_map_of_mem hb

end Order

/-! ## Runs -/

section Run

variable {server : Nat} {kind : ε → Raised} {read : Query → String × Option Method} {ret : Nat → Ret}
  {as : List (Act ε δ)} {s : State δ}

/-- The calls of `send` and their returns along a run, and where they took effect. -/
def history (server : Nat) (kind : ε → Raised) (ret : Nat → Ret) (as : List (Act ε δ)) : History :=
  observed (step server kind) shows (init ret) as

/-- Every history of the clients' calls is linearizable, in the order in which the node handled the requests: a
response is the one that the table gives there, unless it has the error status. The calls of a history are the commands
put, and its returns the futures completed with a response. -/
theorem linearizable (h : runs (step server kind) (init ret) as = some s)
    (hm : Meets (step server kind) (Carried read) (init ret) as) :
    Linearizes (apply read) (Right read) (fun _ => none) (history server kind ret as)
      (effects (history server kind ret as)) ∧
      ∀ k, (∀ i q, .call (k, i) q ∈ history server kind ret as ↔
          ∃ d ∈ (s.clients k).bridge.sent, d.id = i ∧ d.payload = q) ∧
        ∀ i v, .ret (k, i) v ∈ history server kind ret as ↔ (i, .ok v) ∈ (s.clients k).bridge.completed := by
  have ho : Ok read (history server kind ret as) s :=
    meets_observed (fun _ _ _ _ ho hf h => ok_step ho hf h) as (init_ok ret) hm h
  exact ⟨linearizes ho.placed, fun k => ⟨(ho.client k).calls, (ho.client k).returns⟩⟩

/-- Code 1 is `WRITE`, and the other is `READ`. -/
def plain (q : Query) : String × Option Method := (q.path, if q.method = 1 then some .write else some .read)

def writeGreeting : Cmd Query := ⟨0, 0, { method := 1, path := "/greeting", body := [104, 105] }⟩

def readGreeting : Cmd Query := ⟨0, 0, { method := 0, path := "/greeting" }⟩

/-- One client writes while another reads: the write is handled first, and returns last. -/
def writeThenRead : List (Act Unit Unit) :=
  [.client 0 (.connect (.ok ())), .client 0 .owner, .client 0 .resume, .client 1 (.connect (.ok ())), .client 1 .owner,
    .client 1 .resume, .client 1 (.check readGreeting), .client 1 (.put readGreeting), .client 1 .owner,
    .client 0 (.check writeGreeting), .client 0 (.put writeGreeting), .client 0 .owner,
    .arrive 0 writeGreeting ⟨100, 2, 3, ⟨.ok (some .write), .ok (some "/greeting"), [104, 105]⟩, .ok (), .ok ()⟩,
    .arrive 1 readGreeting ⟨101, 4, 3, ⟨.ok (some .read), .ok (some "/greeting"), []⟩, .ok (), .ok ()⟩,
    .client 1 (.send (.ok ⟨0, [104, 105]⟩)), .client 1 .owner, .client 1 (.runLoop 0),
    .client 0 (.send (.ok ⟨1, []⟩)), .client 0 .owner, .client 0 (.runLoop 0)]

theorem linearizable_two : ∃ s, runs (step 1 fun _ => .exception) (init fun _ => ⟨0, 0, []⟩) writeThenRead = some s ∧
    (s.clients 1).bridge.completed = [(0, .ok ⟨0, [104, 105]⟩)] ∧
    Linearizes (apply plain) (Right plain) (fun _ => none)
      (history 1 (fun _ => .exception) (fun _ => ⟨0, 0, []⟩) writeThenRead)
      [((0, 0), writeGreeting.payload), ((1, 0), readGreeting.payload)] := by
  have h : runs (step 1 fun _ => .exception) (init fun _ => ⟨0, 0, []⟩) writeThenRead = some _ := rfl
  refine ⟨_, h, rfl, (linearizable h ?_).1⟩
  refine ⟨trivial, trivial, trivial, trivial, trivial, trivial, trivial, trivial, trivial, trivial, trivial, trivial,
    ⟨List.mem_singleton_self _, List.not_mem_nil, rfl, rfl⟩, ⟨List.mem_singleton_self _, ?_, rfl, rfl⟩, ?_, trivial,
    trivial, ?_, trivial, trivial, trivial⟩
  · exact fun hk => by cases List.mem_singleton.1 hk
  · rintro c ⟨⟩
    exact ⟨_, List.mem_cons_of_mem _ (List.mem_singleton_self _), .inl rfl⟩
  · rintro c ⟨⟩
    exact ⟨_, List.mem_cons_self, .inl rfl⟩

/-- The calls of one client that got a response were handled in the order in which they were put. -/
theorem served_in_order (h : runs (step server kind) (init ret) as = some s)
    (hm : Meets (step server kind) (Carried read) (init ret) as) (k : Nat) :
    (sentOk (s.clients k)).Sublist ((s.clients k).bridge.sent.map Cmd.id) ∧
      ((sentOk (s.clients k)).map fun i => (k, i)).Sublist ((effects (history server kind ret as)).map Prod.fst) := by
  have hstep : ∀ (tr : History) (s : State δ) (a : Act ε δ) (s' : State δ),
      (Ok read tr s ∧ ∀ k, InOrder (s.handled.map Prod.fst) k (s.clients k)) → Carried read s a →
      step server kind s a = some s' → Ok read (tr ++ (shows s a).toList) s' ∧
        ∀ k, InOrder (s'.handled.map Prod.fst) k (s'.clients k) :=
    fun tr s a s' hk hf h => ⟨ok_step hk.1 hf h, inOrder_step hk.1 hk.2 hf h⟩
  obtain ⟨hok, horder⟩ : Ok read (history server kind ret as) s ∧
      ∀ k, InOrder (s.handled.map Prod.fst) k (s.clients k) :=
    meets_observed hstep as ⟨init_ok ret, init_inOrder⟩ hm h
  have hinv := (hok.client k).inv
  constructor
  · -- what was sent was taken from the queue, in its order
    have hexec : (s.clients k).outcomes.map Prod.fst <+: (s.clients k).executed.map Cmd.id := ⟨_, hinv.calls⟩
    have hsent := (hinv.execTaken.trans (Bridge.taken_prefix _)).map Cmd.id
    exact (sentOk_sublist _).trans (hexec.trans hsent).sublist
  · obtain ⟨xs, ys, hkeys, hsub, -⟩ := (horder k).order
    have heff : (effects (history server kind ret as)).map Prod.fst = s.handled.map Prod.fst := by
      rw [hok.order]
      unfold queries
      rw [List.map_map]; rfl
    rw [heff, hkeys]
    exact hsub.trans (List.sublist_append_left xs ys)

/-- One client's read is put while its write waits. -/
def writeAndReadBack : List (Act Unit Unit) :=
  let readBack : Cmd Query := ⟨1, 0, { method := 0, path := "/greeting" }⟩
  [.client 0 (.connect (.ok ())), .client 0 .owner, .client 0 .resume, .client 0 (.check writeGreeting),
    .client 0 (.put writeGreeting), .client 0 (.check readBack), .client 0 (.put readBack), .client 0 .owner,
    .arrive 0 writeGreeting ⟨100, 2, 3, ⟨.ok (some .write), .ok (some "/greeting"), [104, 105]⟩, .ok (), .ok ()⟩,
    .client 0 (.send (.ok ⟨1, []⟩)), .client 0 .owner, .client 0 .owner,
    .arrive 0 readBack ⟨101, 2, 7, ⟨.ok (some .read), .ok (some "/greeting"), []⟩, .ok (), .ok ()⟩,
    .client 0 (.send (.ok ⟨0, [104, 105]⟩))]

theorem served_in_order_two :
    ∃ s, runs (step 1 fun _ => .exception) (init fun _ => ⟨0, 0, []⟩) writeAndReadBack = some s ∧
      sentOk (s.clients 0) = [0, 1] ∧
      ((sentOk (s.clients 0)).map fun i => (0, i)).Sublist
        ((effects (history 1 (fun _ => .exception) (fun _ => ⟨0, 0, []⟩) writeAndReadBack)).map Prod.fst) := by
  have h : runs (step 1 fun _ => .exception) (init fun _ => ⟨0, 0, []⟩) writeAndReadBack = some _ := rfl
  have hm : Meets (step 1 fun _ => .exception) (Carried plain) (init fun _ => ⟨0, 0, []⟩) writeAndReadBack := by
    refine ⟨trivial, trivial, trivial, trivial, trivial, trivial, trivial, trivial,
      ⟨List.mem_singleton_self _, List.not_mem_nil, rfl, rfl⟩, ?_, trivial, trivial,
      ⟨List.mem_cons_of_mem _ (List.mem_singleton_self _), ?_, rfl, rfl⟩, ?_, trivial⟩
    · rintro c ⟨⟩
      exact ⟨_, List.mem_cons_self, .inl rfl⟩
    · exact fun hk => by cases List.mem_singleton.1 hk
    · rintro c ⟨⟩
      exact ⟨_, List.mem_cons_of_mem _ (List.mem_singleton_self _), .inl rfl⟩
  exact ⟨_, h, rfl, (served_in_order h hm 0).2⟩

end Run

end Nwep.Server.Kv.Clients
