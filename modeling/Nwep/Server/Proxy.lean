/-
The caching reverse proxy: every request is parked and deferred, and answered from the server's loop with a
response of the origin, relayed as it came: one that the cache holds, or one fetched for the request and then
put into the cache.

Each request is relayed at most once, in the order of their arrival, and always with what the origin sent; an
exception ends the loop with the requests behind it unanswered.
-/
import Nwep.Server.Answered
import Nwep.Server.Service

namespace Nwep.Server.Proxy

open Lib

variable {ε : Type}

/-! ## The handler -/

/-- `(conn_id, stream_id)`. -/
abbrev Job := Nat × Nat

def job (inc : Incoming Unit) : Job := (inc.conn, inc.streamId)

/-- `proxy_handler`, over `parked`. -/
def handler (parked : List Job) (inc : Incoming Unit) : List Job × Script ε :=
  (parked ++ [job inc], ⟨[.terminal .defer], none⟩)

/-! ## The loop -/

/-- The next statement of the server's thread. `jobs` and `rest` are what `serve_parked` has still to do, `msg`
is the content of the response in hand. -/
inductive Pc where
  | tick
  | next (jobs : List Job) -- for conn, stream in jobs: hit = cache.get_signed(…)
  | relayHit (job : Job) (rest : List Job) (msg : Bytes)
  | closeHit (rest : List Job) (raised : Bool) -- `with hit`, left with an exception or without
  | send (job : Job) (rest : List Job)
  | relay (job : Job) (rest : List Job) (msg : Bytes)
  | put (rest : List Job) (msg : Bytes)
  | close (rest : List Job)
  | stopped
  | failed (rest : List Job) (unclosed : Bool)
deriving Repr, DecidableEq

/-- The jobs that were not relayed. -/
def Pc.jobs : Pc → List Job
  | .next jobs => jobs
  | .relayHit job rest _ | .send job rest | .relay job rest _ => job :: rest
  | .closeHit rest _ | .put rest _ | .close rest | .failed rest _ => rest
  | .tick | .stopped => []

/-- The response in hand, on the way to being relayed or put. -/
def Pc.msg : Pc → Option Bytes
  | .relayHit _ _ msg | .relay _ _ msg | .put _ msg => some msg
  | _ => none

/-- A response is open. -/
def Pc.holds : Pc → Bool
  | .relayHit .. | .closeHit .. | .relay .. | .put .. | .close _ => true
  | .failed _ unclosed => unclosed
  | .tick | .next _ | .send .. | .stopped => false

/-- The thread, and what it did: the relays, with their responses, the responses the origin sent, those put into
the cache, and how many were opened and closed. -/
structure Loop where
  node : Node (List Job)
  pc : Pc
  relayed : List (Job × Bytes)
  sent : List Bytes
  cached : List Bytes
  opened : Nat
  closed : Nat

inductive Act (ε : Type) where
  | request (inc : Incoming Unit)
  | tick (r : Except ε Unit)
  | get (r : Except ε (Option Bytes))
  | send (r : Except ε Bytes)
  | relay (r : Except ε Unit)
  | put (r : Except ε Unit)
  | close
  | loop (stop : Bool)

variable (server : Nat) (kind : ε → Raised)

def step (s : Loop) : Act ε → Option Loop
  | .request inc =>
    if s.pc = .tick then
      (Node.step server kind (handler (ε := ε)) s.node inc).map fun n => { s with node := n }
    else none
  | .tick r => match s.pc, r with
    -- `jobs = list(parked)`, `parked.clear()`
    | .tick, .ok _ => some { s with pc := .next s.node.state, node := { s.node with state := [] } }
    | .tick, .error _ => some { s with pc := .failed [] false }
    | _, _ => none
  | .get r => match s.pc, r with
    | .next (job :: rest), .ok (some msg) => some { s with pc := .relayHit job rest msg, opened := s.opened + 1 }
    | .next (job :: rest), .ok none => some { s with pc := .send job rest }
    | .next (job :: rest), .error _ => some { s with pc := .failed (job :: rest) false }
    | _, _ => none
  | .send r => match s.pc, r with
    | .send job rest, .ok msg =>
      some { s with pc := .relay job rest msg, sent := s.sent ++ [msg], opened := s.opened + 1 }
    | .send job rest, .error _ => some { s with pc := .failed (job :: rest) false }
    | _, _ => none
  | .relay r => match s.pc with
    | .relayHit job rest msg =>
      some { s with relayed := s.relayed ++ [(job, msg)], pc := .closeHit rest (match r with
        | .ok _ => false
        | .error _ => true) }
    | .relay job rest msg =>
      some { s with relayed := s.relayed ++ [(job, msg)], pc := match r with
        | .ok _ => .put rest msg
        | .error _ => .failed rest true }
    | _ => none
  | .put r => match s.pc, r with
    | .put rest msg, .ok _ => some { s with pc := .close rest, cached := s.cached ++ [msg] }
    | .put rest _, .error _ => some { s with pc := .failed rest true }
    | _, _ => none
  | .close => match s.pc with
    | .closeHit rest raised =>
      some { s with closed := s.closed + 1, pc := if raised then .failed rest false else .next rest }
    | .close rest => some { s with closed := s.closed + 1, pc := .next rest }
    | _ => none
  | .loop stop => match s.pc with
    | .next [] => some { s with pc := if stop then .stopped else .tick }
    | _ => none

def init (ret : Nat → Ret) : Loop := ⟨.init ret [], .tick, [], [], [], 0, 0⟩

/-- The cache holds what was put into it. -/
def Fair (s : Loop) : Act ε → Prop
  | .get (.ok (some msg)) => msg ∈ s.cached
  | _ => True

/-- The requests, in the order of their arrival. -/
def asked (as : List (Act ε)) : List Job :=
  as.filterMap fun a => match a with
    | .request inc => some (job inc)
    | _ => none

/-! ## The deferral -/

section Deferral

variable {server : Nat} {kind : ε → Raised} {s s' : Node (List Job)} {inc : Incoming Unit}

def deferredReport : Report := ⟨deferred, [{ deferred := true }]⟩

theorem reply_deferred : (s.played server (handler (ε := ε)) inc).reply = some { deferred := true } := by
  have hfree : s.found.objs.used (s.responder server inc).id = false := Function.update_self ..
  have hclaim := claim_free (ε := ε) hfree
  have hdefer : ((s.responder server inc).defer : Prog ε Reply) s.found = .ok { deferred := true } _ :=
      bind_of_ok hclaim _
  have hrun : (Op.run (s.responder server inc) (.terminal .defer) : Prog ε (Option Reply)) s.found =
      .ok (some { deferred := true }) _ := map_of_ok hdefer some
  unfold Node.played Played.reply
  simp only [handler, play, hrun]

/-- The library is told that the answer comes later. -/
theorem reports_deferred (hk : s.Known) (h : s.step server kind (handler (ε := ε)) inc = some s') :
    s'.host.reports = s.host.reports ++ [deferredReport] := by
  have hreply : (s.played server (handler (ε := ε)) inc).reply = some { deferred := true } := reply_deferred
  have hreturns : (s.invocation server kind handler inc).Returns true := Node.returns_iff.2 hreply
  have hvalue : (s.invocation server kind handler inc).value = deferred := by
    unfold Invocation.value Invocation.trampoline
    rw [hreturns.body]; rfl
  rw [(Node.step_serves hk h).reports, hvalue, hreply]
  rfl

end Deferral

/-! ## Runs -/

section Run

variable {server : Nat} {kind : ε → Raised} {ret : Nat → Ret} {pre as : List (Act ε)} {s s' : Loop} {a : Act ε}

/-- What holds of the thread after the acts `pre`. -/
structure Ok (pre : List (Act ε)) (s : Loop) : Prop where
  known : s.node.Known
  order : s.relayed.map Prod.fst ++ s.pc.jobs ++ s.node.state = asked pre
  relayed : ∀ x ∈ s.relayed, x.2 ∈ s.sent
  cached : ∀ msg ∈ s.cached, msg ∈ s.sent
  inHand : ∀ msg, s.pc.msg = some msg → msg ∈ s.sent
  balance : s.opened = s.closed + if s.pc.holds then 1 else 0
  reports : s.node.host.reports = List.replicate (asked pre).length deferredReport

theorem init_ok : Ok ([] : List (Act ε)) (init ret) where
  known := fun p hp => absurd hp List.not_mem_nil
  order := rfl
  relayed := fun x hx => absurd hx List.not_mem_nil
  cached := fun m hm => absurd hm List.not_mem_nil
  inHand := by rintro msg ⟨⟩
  balance := rfl
  reports := rfl

theorem asked_concat (pre : List (Act ε)) (inc : Incoming Unit) :
    asked (pre ++ [.request inc]) = asked pre ++ [job inc] := by
  unfold asked
  rw [List.filterMap_append]; rfl

/-- An act that is no request asks for nothing. -/
theorem asked_other (pre : List (Act ε)) (h : ∀ inc, a ≠ .request inc) : asked (pre ++ [a]) = asked pre := by
  unfold asked
  rw [List.filterMap_append]
  cases a with
  | request inc => exact absurd rfl (h inc)
  | _ => exact List.append_nil _

/-- A step within the loop: the server's side is left alone. -/
theorem Ok.move (hk : Ok pre s) (ha : asked (pre ++ [a]) = asked pre) (hhost : s'.node.host = s.node.host)
    (horder : s'.relayed.map Prod.fst ++ s'.pc.jobs ++ s'.node.state = s.relayed.map Prod.fst ++ s.pc.jobs ++
      s.node.state)
    (hrelayed : ∀ x ∈ s'.relayed, x.2 ∈ s'.sent) (hcached : ∀ msg ∈ s'.cached, msg ∈ s'.sent)
    (hinHand : ∀ msg, s'.pc.msg = some msg → msg ∈ s'.sent)
    (hbalance : s'.opened = s'.closed + if s'.pc.holds then 1 else 0) : Ok (pre ++ [a]) s' where
  known := by unfold Node.Known; rw [hhost]; exact hk.known
  order := by rw [horder, ha]; exact hk.order
  relayed := hrelayed
  cached := hcached
  inHand := hinHand
  balance := hbalance
  reports := by rw [hhost, ha]; exact hk.reports

/-- The next statement, with the same jobs to do and none or the same response open. -/
theorem Ok.turn {pc : Pc} (hk : Ok pre s) (ha : asked (pre ++ [a]) = asked pre) (hjobs : pc.jobs = s.pc.jobs)
    (hmsg : pc.msg = none) (hholds : pc.holds = s.pc.holds) : Ok (pre ++ [a]) { s with pc := pc } := by
  refine hk.move ha rfl ?_ hk.relayed hk.cached ?_ ?_
  · simp only [hjobs]
  · intro msg hm
    rw [hmsg] at hm; cases hm
  · simp only [hholds]
    exact hk.balance

theorem ok_request {inc : Incoming Unit} {n : Node (List Job)} (hk : Ok pre s)
    (hn : s.node.step server kind (handler (ε := ε)) inc = some n) :
    Ok (pre ++ [.request inc]) { s with node := n } := by
  have hserves := Node.step_serves hk.known hn
  have horder := hk.order
  refine ⟨hserves.known hk.known, ?_, hk.relayed, hk.cached, hk.inHand, hk.balance, ?_⟩
  · show s.relayed.map Prod.fst ++ s.pc.jobs ++ n.state = _
    rw [asked_concat, ← horder, hserves.state, handler, ← List.append_assoc]
  · show n.host.reports = _
    rw [reports_deferred hk.known hn, hk.reports, asked_concat, List.length_append, List.replicate_add]
    rfl

theorem ok_step (hk : Ok pre s) (hf : Fair s a) (h : step server kind s a = some s') : Ok (pre ++ [a]) s' := by
  have horder := hk.order
  have hbalance := hk.balance
  have hinHand := hk.inHand
  cases a with
  | request inc =>
    simp only [step] at h
    split at h
    · obtain ⟨n, hn, rfl⟩ := Option.map_eq_some_iff.1 h
      exact ok_request hk hn
    · cases h
  | tick r =>
    have ha := asked_other (a := .tick r) pre (by rintro inc ⟨⟩)
    simp only [step] at h
    split at h
    · rename_i hpc
      cases h
      refine hk.move ha rfl ?_ hk.relayed hk.cached (by rintro msg ⟨⟩) ?_
      · simp [hpc, Pc.jobs]
      · simpa [hpc, Pc.holds] using hbalance
    · rename_i hpc
      cases h
      exact hk.turn ha (by rw [hpc]; rfl) rfl (by rw [hpc]; rfl)
    · cases h
  | get r =>
    have ha := asked_other (a := .get r) pre (by rintro inc ⟨⟩)
    simp only [step] at h
    split at h
    · rename_i job rest msg hpc
      cases h
      refine hk.move ha rfl ?_ hk.relayed hk.cached ?_ ?_
      · simp [hpc, Pc.jobs]
      · -- a hit is what was put, which the origin sent
        rintro m hm
        cases hm
        exact hk.cached msg hf
      · simpa [hpc, Pc.holds] using hbalance
    · rename_i hpc
      cases h
      exact hk.turn ha (by rw [hpc]; rfl) rfl (by rw [hpc]; rfl)
    · rename_i hpc
      cases h
      exact hk.turn ha (by rw [hpc]; rfl) rfl (by rw [hpc]; rfl)
    · cases h
  | send r =>
    have ha := asked_other (a := .send r) pre (by rintro inc ⟨⟩)
    simp only [step] at h
    split at h
    · rename_i job rest msg hpc
      cases h
      have hmore : ∀ m, m ∈ s.sent → m ∈ s.sent ++ [msg] := fun m hm => List.mem_append_left _ hm
      refine hk.move ha rfl ?_ (fun x hx => hmore _ (hk.relayed x hx)) (fun m hm => hmore m (hk.cached m hm)) ?_ ?_
      · simp [hpc, Pc.jobs]
      · rintro m hm
        cases hm
        exact List.mem_append_right _ (List.mem_singleton_self msg)
      · simpa [hpc, Pc.holds] using hbalance
    · rename_i hpc
      cases h
      exact hk.turn ha (by rw [hpc]; rfl) rfl (by rw [hpc]; rfl)
    · cases h
  | relay r =>
    have ha := asked_other (a := .relay r) pre (by rintro inc ⟨⟩)
    -- what is relayed is what is in hand
    have hgiven : ∀ job msg, s.pc.msg = some msg → ∀ x ∈ s.relayed ++ [(job, msg)], x.2 ∈ s.sent := by
      intro job msg hm x hx
      rcases List.mem_append.1 hx with hx | hx
      · exact hk.relayed x hx
      · rw [List.mem_singleton.1 hx]; exact hinHand msg hm
    simp only [step] at h
    split at h
    · rename_i job rest msg hpc
      cases h
      refine hk.move ha rfl ?_ (hgiven job msg (by rw [hpc]; rfl)) hk.cached (by rintro m ⟨⟩) ?_
      · simp [hpc, Pc.jobs]
      · simpa [hpc, Pc.holds] using hbalance
    · rename_i job rest msg hpc
      cases h
      refine hk.move ha rfl ?_ (hgiven job msg (by rw [hpc]; rfl)) hk.cached ?_ ?_
      · cases r <;> simp [hpc, Pc.jobs]
      · intro m hm
        refine hinHand m ?_
        cases r with
        | ok u => rw [hpc]; exact hm
        | error e => cases hm
      · cases r <;> simpa [hpc, Pc.holds] using hbalance
    · cases h
  | put r =>
    have ha := asked_other (a := .put r) pre (by rintro inc ⟨⟩)
    simp only [step] at h
    split at h
    · rename_i rest msg u hpc
      cases h
      refine hk.move ha rfl ?_ hk.relayed ?_ (by rintro m ⟨⟩) ?_
      · simp [hpc, Pc.jobs]
      · intro m hm
        rcases List.mem_append.1 hm with hm | hm
        · exact hk.cached m hm
        · rw [List.mem_singleton.1 hm]
          exact hinHand msg (by rw [hpc]; rfl)
      · simpa [hpc, Pc.holds] using hbalance
    · rename_i hpc
      cases h
      exact hk.turn ha (by rw [hpc]; rfl) rfl (by rw [hpc]; rfl)
    · cases h
  | close =>
    have ha := asked_other (a := (.close : Act ε)) pre (by rintro inc ⟨⟩)
    simp only [step] at h
    split at h
    · rename_i rest raised hpc
      cases h
      refine hk.move ha rfl ?_ hk.relayed hk.cached ?_ ?_
      · cases raised <;> simp [hpc, Pc.jobs]
      · cases raised <;> rintro m ⟨⟩
      · cases raised <;> simpa [hpc, Pc.holds] using hbalance
    · rename_i rest hpc
      cases h
      refine hk.move ha rfl ?_ hk.relayed hk.cached (by rintro m ⟨⟩) ?_
      · simp [hpc, Pc.jobs]
      · simpa [hpc, Pc.holds] using hbalance
    · cases h
  | loop stop =>
    have ha := asked_other (a := (.loop stop : Act ε)) pre (by rintro inc ⟨⟩)
    simp only [step] at h
    split at h
    · rename_i hpc
      cases h
      cases stop
      · exact hk.turn ha (by rw [hpc]; rfl) rfl (by rw [hpc]; rfl)
      · exact hk.turn ha (by rw [hpc]; rfl) rfl (by rw [hpc]; rfl)
    · cases h

/-- On every run of the proxy whose cache holds what was put into it: each request is reported deferred; the requests
relayed so far, with those still to be relayed, are the requests that came in, in their order and once each; every
response relayed was sent by the origin; and all responses were closed but the one in hand. -/
theorem deferred_relayed (h : runs (step server kind) (init ret) as = some s)
    (hf : Meets (step server kind) Fair (init ret) as) :
    s.relayed.map Prod.fst ++ s.pc.jobs ++ s.node.state = asked as ∧
      s.node.host.reports = List.replicate (asked as).length deferredReport ∧
      (∀ x ∈ s.relayed, x.2 ∈ s.sent) ∧ s.opened = s.closed + if s.pc.holds then 1 else 0 := by
  have hk : Ok ([] ++ as) s := meets_trace (fun _ _ _ _ hk hf h => ok_step hk hf h) [] as init_ok hf h
  exact ⟨hk.order, hk.reports, hk.relayed, hk.balance⟩

/-- Two requests in one tick: the first is fetched, the second served from the cache. -/
def fetchAndHit : List (Act Unit) :=
  [.request ⟨100, 2, 3, (), .ok (), .ok ()⟩, .request ⟨101, 4, 3, (), .ok (), .ok ()⟩, .tick (.ok ()), .get (.ok none),
    .send (.ok [7]), .relay (.ok ()), .put (.ok ()), .close, .get (.ok (some [7])), .relay (.ok ()), .close, .loop true]

theorem deferred_relayed_hit : ∃ s, runs (step 1 fun _ => .exception) (init fun _ => ⟨0, 0, []⟩) fetchAndHit = some s ∧
    s.pc = .stopped ∧ s.relayed = [((2, 3), [7]), ((4, 3), [7])] ∧ ∀ x ∈ s.relayed, x.2 ∈ s.sent := by
  have h : runs (step 1 fun _ => .exception) (init fun _ => ⟨0, 0, []⟩) fetchAndHit = some _ := rfl
  refine ⟨_, h, rfl, rfl, (deferred_relayed h ?_).2.2.1⟩
  exact ⟨trivial, trivial, trivial, trivial, trivial, trivial, trivial, trivial, List.mem_singleton_self _, trivial,
    trivial, trivial, trivial⟩

end Run

end Nwep.Server.Proxy
