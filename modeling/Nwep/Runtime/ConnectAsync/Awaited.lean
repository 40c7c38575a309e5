/-
What an awaited `AsyncClient.send` raises. The owner thread runs the wrapper's `Client.send` on the native
objects, and its exception crosses back to the future of the command; what a drain rejects, or what comes
once the client is closed, gets the runtime's own `NetworkClosed`. So an `except` clause around the await is
entered exactly where the library reported, to a call made for that very request, a code that the clause
stands for, or where the request was not passed on and the clause stands for `NetworkClosed`.
-/
import Nwep.Native.Raises
import Nwep.Runtime.ConnectAsync.Routing

namespace Nwep.Runtime.ConnectAsync.Awaited

open Lib
open Nwep.Native (Wrapper Value Heap)

variable {ε : Type}

/-! ## The exceptions -/

def networkClosed : Errors.Row := ⟨-203, "NetworkClosed", "network-closed", .network, false⟩

def identityNotFound : Errors.Row := ⟨-503, "IdentityNotFound", "identity-not-found", .identity, false⟩

/-- The exception that an `Exc` stands for, if it is one of `errors`. -/
def exn (text : Int → Option String) : Exc (PyExc ε) → Option Errors.Exn
  | .raised e => Errors.exn text Errors.table e
  | .networkClosed message => some ((Errors.Cls.leaf networkClosed).make text (some message))
  | .identityNotFound message => some ((Errors.Cls.leaf identityNotFound).make text (some message))
  | .loopClosed => none

/-- `except cls`, around what ends with the outcome `o`. -/
def Caught (text : Int → Option String) (o : Except (Exc (PyExc ε)) Value) (cls : Errors.Cls) : Prop :=
  ∃ e x, o = .error e ∧ exn text e = some x ∧ x.CaughtBy cls

theorem caught_ok {text : Int → Option String} {v : Value} {cls : Errors.Cls} :
    ¬ Caught text (.ok v : Except (Exc (PyExc ε)) Value) cls := fun ⟨_, _, h, _⟩ => by cases h

/-- A clause catches `NetworkClosed` if it stands for its code. -/
theorem caught_networkClosed {text : Int → Option String} {message : String} {cls : Errors.Cls} :
    Caught text (.error (.networkClosed message) : Except (Exc (PyExc ε)) Value) cls ↔
      Errors.table.Covers cls (-203) := by
  have hcode : Errors.byCode Errors.table (-203) = some (.leaf networkClosed) :=
    Errors.byCode_leaf (show networkClosed ∈ Errors.table.rows by decide)
  have hcovers : (Errors.fromCode text Errors.table (-203)).CaughtBy cls ↔ Errors.table.Covers cls (-203) :=
    Errors.caught_iff_covers
  rw [← hcovers]
  unfold Errors.Exn.CaughtBy Errors.fromCode
  rw [hcode]
  constructor
  · rintro ⟨e, x, he, hx, hcls⟩
    cases he; cases hx
    exact hcls
  · exact fun h => ⟨_, _, rfl, rfl, h⟩

/-! ## The client over its native objects -/

/-- How a call converts the parts of a request. -/
structure Converts (ε : Type) where
  method : Request → Arg ε Int
  path : Request → Arg ε Bytes
  body : Request → Arg ε Bytes
  headers : Request → Arg ε (Option (List (Bytes × Bytes)))

/-- `client.send(cmd.method, cmd.path, cmd.body, cmd.headers)`. -/
def sendOf (conv : Converts ε) (q : Request) : Native.Body ε :=
  .method (Native.Client.send (conv.method q) (conv.path q) (conv.body q) (conv.headers q))

/-- What a run returned or raised, in the owner. -/
def outcome {σ α : Type} : EStateM.Result (PyExc ε) σ α → Except (PyExc ε) α
  | .ok a _ => .ok a
  | .error e _ => .error e

/-- `calls` are the library calls made by `client.send`, each with the command it was made for; `asked` are the
numbers of the `AsyncClient.send`s so far, and `refused` those that found the client closed, with what they raised. -/
structure State (ε : Type) where
  client : ConnectAsync.State (PyExc ε) Value
  objects : Heap
  calls : List (Nat × Native.Call × Ret)
  asked : List Nat
  refused : List (Nat × Except (Exc (PyExc ε)) Value)

def init (v : Heap) : State ε := ⟨ConnectAsync.init, v, [], [], []⟩

/-- An awaited `send` ended with `o`: its future was completed, or it was refused. -/
def State.Ended (s : State ε) (i : Nat) (o : Except (Exc (PyExc ε)) Value) : Prop :=
  (i, o) ∈ s.client.bridge.completed ∨ (i, o) ∈ s.refused

/-- The label of a step: `others` is whatever else is done with the native objects in between. -/
inductive Act (ε : Type) where
  | party (a : ConnectAsync.Act (PyExc ε) Value)
  | send
  | others (v : Heap)

section Step

variable (conv : Converts ε) (w : Wrapper)

def step (s : State ε) : Act ε → Option (State ε)
  | .party (.send _) => none
  | .party (.check c) =>
    -- each call of `send` has a number of its own
    if c.id ∈ s.asked then none
    else (ConnectAsync.step s.client (.check c)).map fun t => { s with
      client := t
      asked := s.asked ++ [c.id]
      refused := s.refused ++ if s.client.closed then [(c.id, .error (.networkClosed "client is closed"))] else [] }
  | .party a => (ConnectAsync.step s.client a).map fun c => { s with client := c }
  | .send =>
    match s.client.pc with
    | .send c =>
      let prog := (sendOf conv c.payload).run .client w
      (ConnectAsync.step s.client (.send (outcome (prog s.objects)))).map fun t =>
        { s with
          client := t
          objects := after prog s.objects
          calls := s.calls ++ (callsOf prog s.objects).map fun x => (c.id, x) }
    | _ => none
  | .others v => some { s with objects := v }

/-- What a step can do. -/
inductive Moves (s : State ε) : State ε → Prop where
  | others {v : Heap} : Moves s { s with objects := v }
  | check {d : Cmd Request} {c : ConnectAsync.State (PyExc ε) Value} : d.id ∉ s.asked → Step s.client (.check d) c →
      Moves s { s with
        client := c
        asked := s.asked ++ [d.id]
        refused := s.refused ++ if s.client.closed then [(d.id, .error (.networkClosed "client is closed"))] else [] }
  | party {a : ConnectAsync.Act (PyExc ε) Value} {c : ConnectAsync.State (PyExc ε) Value} : (∀ d, a ≠ .check d) →
      (∀ r, a ≠ .send r) → Step s.client a c → Moves s { s with client := c }
  | send {d : Cmd Request} {c : ConnectAsync.State (PyExc ε) Value} : s.client.pc = .send d →
      Step s.client (.send (outcome ((sendOf conv d.payload).run .client w s.objects))) c →
      Moves s { s with
        client := c
        objects := after ((sendOf conv d.payload).run .client w) s.objects
        calls := s.calls ++ (callsOf ((sendOf conv d.payload).run .client w) s.objects).map fun x => (d.id, x) }

variable {conv w} in
theorem step_moves {s s' : State ε} {a : Act ε} (h : step conv w s a = some s') : Moves conv w s s' := by
  cases a with
  | others v => cases h; exact .others
  | send =>
    simp only [step] at h
    split at h
    · rename_i d hp
      obtain ⟨c, hc, rfl⟩ := Option.map_eq_some_iff.1 h
      exact .send hp (step_cases hc)
    · cases h
  | party a =>
    have hother (hcheck : ∀ d, a ≠ .check d) (hsend : ∀ r, a ≠ .send r) : Moves conv w s s' := by
      have hs : (ConnectAsync.step s.client a).map (fun c => { s with client := c }) = some s' := by
        cases a <;> first | exact h | exact absurd rfl (hcheck _) | exact absurd rfl (hsend _)
      obtain ⟨c, hc, rfl⟩ := Option.map_eq_some_iff.1 hs
      exact .party hcheck hsend (step_cases hc)
    cases a with
    | send r => cases h
    | check d =>
      simp only [step] at h
      split at h
      · cases h
      · rename_i hnew
        obtain ⟨c, hc, rfl⟩ := Option.map_eq_some_iff.1 h
        exact .check hnew (step_cases hc)
    | _ => exact hother (fun d hd => by cases hd) fun r hr => by cases hr

end Step

/-! ## Every request has its own calls -/

section MadeFor

/-- The calls made for the command `i`. -/
def madeFor (i : Nat) (calls : List (Nat × Native.Call × Ret)) : List (Native.Call × Ret) :=
  calls.filterMap fun x => if x.1 = i then some x.2 else none

variable {i : Nat}

theorem madeFor_append (l m : List (Nat × Native.Call × Ret)) : madeFor i (l ++ m) = madeFor i l ++ madeFor i m :=
  List.filterMap_append

theorem madeFor_self (l : List (Native.Call × Ret)) : madeFor i (l.map fun x => (i, x)) = l := by
  simp [madeFor]

theorem madeFor_other {j : Nat} (h : j ≠ i) (l : List (Native.Call × Ret)) :
    madeFor i (l.map fun x => (j, x)) = [] := by
  unfold madeFor
  rw [List.filterMap_eq_nil_iff]
  intro x hx
  obtain ⟨y, -, rfl⟩ := List.mem_map.1 hx
  exact if_neg h

theorem mem_madeFor {x : Native.Call × Ret} {calls : List (Nat × Native.Call × Ret)} :
    x ∈ madeFor i calls ↔ (i, x) ∈ calls := by
  unfold madeFor
  rw [List.mem_filterMap]
  constructor
  · rintro ⟨⟨j, y⟩, hy, he⟩
    split at he
    · rename_i hj
      cases he
      exact hj ▸ hy
    · cases he
  · exact fun h => ⟨_, h, if_pos rfl⟩

end MadeFor

section Told

variable {conv : Converts ε} {w : Wrapper} {s s' : State ε}

/-- Nobody but the owner's `client.send` has an outcome. -/
theorem outcomes_other {c c' : ConnectAsync.State (PyExc ε) Value} {a : ConnectAsync.Act (PyExc ε) Value}
    (h : Step c a c') (ha : ∀ r, a ≠ .send r) : c'.outcomes = c.outcomes := by
  cases h with
  | sendOk | sendFail => exact absurd rfl (ha _)
  | _ => rfl

theorem outcomes_send {c c' : ConnectAsync.State (PyExc ε) Value} {d : Cmd Request} {r : Except (PyExc ε) Value}
    (h : Step c (.send r) c') (hp : c.pc = .send d) :
    c'.outcomes = c.outcomes ++ [(d.id, r.mapError .raised)] := by
  cases h with
  | sendOk hp' | sendFail hp' => rw [hp] at hp'; cases hp'; rfl

/-- The outcome of each command passed on is that of a run of `Client.send`, whose calls are those made for it. -/
structure Told (conv : Converts ε) (w : Wrapper) (s : State ε) : Prop where
  inv : Inv s.client
  ran : ∀ i o, (i, o) ∈ s.client.outcomes → ∃ q v,
    o = (outcome ((sendOf conv q).run .client w v)).mapError .raised ∧
      madeFor i s.calls = callsOf ((sendOf conv q).run .client w) v
  quiet : ∀ i, i ∉ s.client.outcomes.map Prod.fst → madeFor i s.calls = []

/-- A command in the owner's `client.send` has no outcome yet. -/
theorem send_new {c : ConnectAsync.State (PyExc ε) Value} {d : Cmd Request} (hi : Inv c) (hp : c.pc = .send d) :
    d.id ∉ c.outcomes.map Prod.fst := by
  have hcalls := hi.calls
  have hids : (c.executed.map Cmd.id).Nodup :=
    hi.bridge.ids.sublist ((hi.execTaken.trans c.bridge.taken_prefix).map _).sublist
  rw [hp] at hcalls
  rw [← hcalls, List.nodup_append] at hids
  exact fun h => hids.2.2 _ h _ (by simp [Pc.inCall]) rfl

theorem told_step (ht : Told conv w s) (h : Moves conv w s s') : Told conv w s' := by
  cases h with
  | others => exact ⟨ht.inv, ht.ran, ht.quiet⟩
  | check _ hc =>
    have hout := outcomes_other hc fun r hr => by cases hr
    exact ⟨inv_step ht.inv hc, by rw [hout]; exact ht.ran, by rw [hout]; exact ht.quiet⟩
  | party _ ha hc =>
    have hout := outcomes_other hc ha
    exact ⟨inv_step ht.inv hc, by rw [hout]; exact ht.ran, by rw [hout]; exact ht.quiet⟩
  | @send d c hp hc =>
    have hout := outcomes_send hc hp
    have hnew := send_new ht.inv hp
    refine ⟨inv_step ht.inv hc, fun i o ho => ?_, fun i hi => ?_⟩
    · rw [hout, List.mem_append, List.mem_singleton] at ho
      rcases ho with ho | ho
      · have hne : d.id ≠ i := fun he => hnew (he ▸ List.mem_map_of_mem ho)
        rw [madeFor_append, madeFor_other hne, List.append_nil]
        exact ht.ran i o ho
      · cases ho
        refine ⟨d.payload, s.objects, rfl, ?_⟩
        rw [madeFor_append, madeFor_self, ht.quiet d.id hnew, List.nil_append]
    · rw [hout, List.map_append, List.mem_append, not_or] at hi
      have hne : d.id ≠ i := fun he => hi.2 (by simp [he])
      rw [madeFor_append, madeFor_other hne, List.append_nil]
      exact ht.quiet i hi.1

end Told

/-! ## What a closed client refuses -/

section Refused

variable {conv : Converts ε} {w : Wrapper} {s s' : State ε}

/-- The commands that are past the check. -/
def Passed (c : ConnectAsync.State (PyExc ε) Value) (d : Cmd Request) : Prop := d ∈ c.accepted ∨ d ∈ c.bridge.sent

theorem passed_other {c c' : ConnectAsync.State (PyExc ε) Value} {a : ConnectAsync.Act (PyExc ε) Value}
    {d : Cmd Request}
    (h : Step c a c') (ha : ∀ d, a ≠ .check d) (hd : Passed c' d) : Passed c d := by
  have hsent := sent_step h
  unfold Passed at hd ⊢
  rw [hsent, List.mem_append] at hd
  cases h with
  | check | checkClosed => exact absurd rfl (ha _)
  | put hm _ =>
    rcases hd with hd | hd | hd
    · exact .inl (List.mem_of_mem_erase hd)
    · exact .inr hd
    · rw [List.mem_singleton.1 hd]
      exact .inl hm
  | _ => exact hd.imp_right fun h => h.resolve_right List.not_mem_nil

theorem passed_check {c c' : ConnectAsync.State (PyExc ε) Value} {d e : Cmd Request} (h : Step c (.check e) c')
    (hd : Passed c' d) : Passed c d ∨ (d = e ∧ c.closed = false) := by
  cases h with
  | check _ hopen =>
    rcases hd with hd | hd
    · rcases List.mem_append.1 hd with hd | hd
      · exact .inl (.inl hd)
      · exact .inr ⟨List.mem_singleton.1 hd, hopen⟩
    · exact .inl (.inr hd)
  | checkClosed => exact .inl hd

/-- A call that was refused put no command, and has raised `NetworkClosed`. -/
structure Refusing (s : State ε) : Prop where
  asked : ∀ d, Passed s.client d → d.id ∈ s.asked
  numbered : ∀ i o, (i, o) ∈ s.refused → i ∈ s.asked
  apart : ∀ i o, (i, o) ∈ s.refused → ∀ d, Passed s.client d → d.id ≠ i
  raised : ∀ i o, (i, o) ∈ s.refused → o = .error (.networkClosed "client is closed")

theorem refusing_step (hr : Refusing s) (h : Moves conv w s s') : Refusing s' := by
  cases h with
  | others => exact ⟨hr.asked, hr.numbered, hr.apart, hr.raised⟩
  | party ha _ hc =>
    exact ⟨fun d hd => hr.asked d (passed_other hc ha hd), hr.numbered,
      fun i o ho d hd => hr.apart i o ho d (passed_other hc ha hd), hr.raised⟩
  | send _ hc =>
    have hpassed := fun d => passed_other (d := d) hc fun e he => by cases he
    exact ⟨fun d hd => hr.asked d (hpassed d hd), hr.numbered, fun i o ho d hd => hr.apart i o ho d (hpassed d hd),
      hr.raised⟩
  | @check e c hnew hc =>
    have hmem {i : Nat} {o : Except (Exc (PyExc ε)) Value}
        (ho : (i, o) ∈ s.refused ++
          if s.client.closed then [(e.id, .error (.networkClosed "client is closed"))] else []) :
        (i, o) ∈ s.refused ∨ (i = e.id ∧ o = .error (.networkClosed "client is closed") ∧ s.client.closed = true) := by
      rcases List.mem_append.1 ho with ho | ho
      · exact .inl ho
      · split at ho
        · rename_i hclosed
          cases List.mem_singleton.1 ho
          exact .inr ⟨rfl, rfl, hclosed⟩
        · cases ho
    refine ⟨fun d hd => ?_, fun i o ho => ?_, fun i o ho d hd => ?_, fun i o ho => ?_⟩
    · rw [List.mem_append, List.mem_singleton]
      rcases passed_check hc hd with hd | ⟨rfl, -⟩
      · exact .inl (hr.asked d hd)
      · exact .inr rfl
    · rw [List.mem_append, List.mem_singleton]
      rcases hmem ho with ho | ⟨rfl, -, -⟩
      · exact .inl (hr.numbered i o ho)
      · exact .inr rfl
    · rcases hmem ho with hin | ⟨rfl, -, hclosed⟩
      · rcases passed_check hc hd with hd | ⟨rfl, -⟩
        · exact hr.apart i o hin d hd
        · exact fun he => hnew (he ▸ hr.numbered i o hin)
      · -- the client is closed, so the call is refused and its number is new
        rcases passed_check hc hd with hd | ⟨-, hopen⟩
        · exact fun he => hnew (he ▸ hr.asked d hd)
        · rw [hclosed] at hopen; cases hopen
    · rcases hmem ho with ho | ⟨-, ho, -⟩
      · exact hr.raised i o ho
      · exact ho

end Refused

/-! ## What is caught -/

section Caught

variable {conv : Converts ε} {w : Wrapper} {s : State ε}

/-- The outcome of a run of `Client.send`, caught. -/
theorem caught_outcome (text : Int → Option String) (cls : Errors.Cls) (q : Request) (v : Heap) :
    Caught text ((outcome ((sendOf conv q).run .client w v)).mapError .raised) cls ↔
      ∃ c ∈ callsOf ((sendOf conv q).run .client w) v,
        c.1.fn.reports c.2.rc = true ∧ Errors.table.Covers cls c.2.rc := by
  have hpublic : Native.Public .client (sendOf conv q) := .clientSend _ _ _ _
  rw [← hpublic.caught text Errors.table cls w v]
  cases (sendOf conv q).run .client w v with
  | ok a v' => exact iff_of_false caught_ok fun ⟨_, _, h, _⟩ => by cases h
  | error e v' =>
    constructor
    · rintro ⟨e', x, he, hx, hcls⟩
      cases he
      exact ⟨e, v', rfl, x, hx, hcls⟩
    · rintro ⟨e', v'', he, x, hx, hcls⟩
      cases he
      exact ⟨_, x, rfl, hx, hcls⟩

/-- What has an outcome was passed on. -/
theorem Told.carried (ht : Told conv w s) {i : Nat} {o : Except (Exc (PyExc ε)) Value}
    (ho : (i, o) ∈ s.client.outcomes) : ∃ c ∈ s.client.executed, c.id = i := by
  have hids : s.client.outcomes.map Prod.fst <+: s.client.executed.map Cmd.id := ⟨_, ht.inv.calls⟩
  exact List.mem_map.1 (hids.subset (List.mem_map_of_mem ho))

/-- What was not passed on has no calls. -/
theorem Told.no_calls (ht : Told conv w s) {i : Nat} (hnot : ∀ c ∈ s.client.executed, c.id ≠ i)
    {c : Native.Call × Ret} : (i, c) ∉ s.calls := by
  rw [← mem_madeFor, ht.quiet i fun h => ?_]
  · exact List.not_mem_nil
  · obtain ⟨x, hx, rfl⟩ := List.mem_map.1 h
    obtain ⟨d, hd, hid⟩ := ht.carried hx
    exact hnot d hd hid

/-- The outcome of a request that was passed on is caught for its own calls alone. -/
theorem Told.caught_passed (ht : Told conv w s) {i : Nat} {o : Except (Exc (PyExc ε)) Value}
    (ho : (i, o) ∈ s.client.outcomes) (text : Int → Option String) (cls : Errors.Cls) :
    Caught text o cls ↔ ∃ c, (i, c) ∈ s.calls ∧ c.1.fn.reports c.2.rc = true ∧ Errors.table.Covers cls c.2.rc := by
  obtain ⟨q, v, hout, hcalls⟩ := ht.ran i o ho
  rw [hout, caught_outcome, ← hcalls]
  simp only [mem_madeFor]

/-- On every run, whatever the library returns: an `except` clause around an awaited `send` catches if and only if
a call that `client.send` made for this very request returned an error whose code the clause stands for, or the
request was never passed to `client.send` (a drain rejected it, or the client was closed) and the clause stands
for `NetworkClosed`. -/
theorem awaited_caught {v : Heap} {as : List (Act ε)} (h : runs (step conv w) (init v) as = some s) {i : Nat}
    {o : Except (Exc (PyExc ε)) Value} (hended : s.Ended i o) (text : Int → Option String) (cls : Errors.Cls) :
    Caught text o cls ↔
      (∃ c, (i, c) ∈ s.calls ∧ c.1.fn.reports c.2.rc = true ∧ Errors.table.Covers cls c.2.rc) ∨
        ((∀ c ∈ s.client.executed, c.id ≠ i) ∧ Errors.table.Covers cls (-203)) := by
  have ht : Told conv w s := Lib.runs_inv (I := Told conv w) (fun _ _ _ ht h => told_step ht (step_moves h)) as
    ⟨init_inv, (fun _ _ h => by cases h), fun _ _ => rfl⟩ h
  have hr : Refusing s := Lib.runs_inv (I := Refusing) (fun _ _ _ hr h => refusing_step hr (step_moves h)) as
    ⟨(fun _ h => by rcases h with h | h <;> cases h), (fun _ _ h => by cases h), (fun _ _ h => by cases h),
      fun _ _ h => by cases h⟩ h
  -- what was not passed on ended with `NetworkClosed`
  have hclosed {j : Nat} {message : String} (hnot : ∀ c ∈ s.client.executed, c.id ≠ j)
      (ho : o = .error (.networkClosed message)) :
      Caught text o cls ↔ (∃ c, (j, c) ∈ s.calls ∧ c.1.fn.reports c.2.rc = true ∧ Errors.table.Covers cls c.2.rc) ∨
        ((∀ c ∈ s.client.executed, c.id ≠ j) ∧ Errors.table.Covers cls (-203)) := by
    rw [ho, caught_networkClosed, or_iff_right fun ⟨c, hc, _⟩ => ht.no_calls hnot hc, and_iff_right hnot]
  rcases hended with hdone | hrefused
  · obtain ⟨x, hx, rfl, rfl⟩ := ht.inv.bridge.doneFrom i o ((ht.inv.bridge.completed i o).1 hdone)
    rcases ht.inv.answers x hx with ho | ⟨hnot, ho⟩
    · obtain ⟨c, hc, hid⟩ := ht.carried ho
      rw [ht.caught_passed ho, or_iff_left fun h => h.1 c hc hid]
    · exact hclosed hnot ho
  · refine hclosed (fun c hc => ?_) (hr.raised i o hrefused)
    have hsent : c ∈ s.client.bridge.sent := (ht.inv.execTaken.trans (Bridge.taken_prefix _)).subset hc
    exact hr.apart i o hrefused c (.inr hsent)

/-- A library that turns every request away for its rate. -/
def turnsAway : Heap := ⟨fun _ => {}, fun _ => ⟨-603, 0, []⟩, []⟩

def plainText : Converts Unit where
  method q := .ok q.method
  path q := .ok (utf8 q.path)
  body q := .ok q.body
  headers _ := .ok none

/-- A request that is turned away, one behind the stop of an `aclose`, and one after it. -/
def rejectedAndDrained : List (Act Unit) :=
  let c : Cmd Request := ⟨0, 0, { method := 0, path := "/hello" }⟩
  let d : Cmd Request := ⟨1, 0, { method := 0, path := "/late" }⟩
  let e : Cmd Request := ⟨2, 0, { method := 0, path := "/closed" }⟩
  [.party (.connect (.ok ())), .party .owner, .party .resume, .party (.check c), .party (.check d), .party (.put c),
    .party .owner, .send, .party .owner, .party (.aclose 0), .party (.acloseStop 0), .party (.put d), .party (.check e),
    .party .owner, .party .owner, .party .owner, .party (.runLoop 0), .party (.runLoop 0)]

/-- The first is caught as an error of the application, the others as ones of the network. -/
theorem awaited_caught_each :
    ∃ s o o' o'', runs (step plainText ⟨0, 7⟩) (init turnsAway) rejectedAndDrained = some s ∧
      s.client.bridge.completed = [(0, o), (1, o')] ∧ s.refused = [(2, o'')] ∧
      (Caught (fun _ => none) o (.family .app) ∧ ¬ Caught (fun _ => none) o (.family .network)) ∧
      (Caught (fun _ => none) o' (.family .network) ∧ ¬ Caught (fun _ => none) o' (.family .app)) ∧
      Caught (fun _ => none) o'' (.family .network) ∧ ¬ Caught (fun _ => none) o'' (.family .app) := by
  have hsome : (runs (step plainText ⟨0, 7⟩) (init turnsAway) rejectedAndDrained).isSome := rfl
  obtain ⟨s, hrun⟩ := Option.isSome_iff_exists.1 hsome
  have hs := hrun
  cases hs
  have hfirst := fun cls => awaited_caught hrun (.inl List.mem_cons_self) (fun _ => none) cls
  have hsecond := fun cls => awaited_caught hrun (.inl (List.mem_cons_of_mem _ List.mem_cons_self)) (fun _ => none) cls
  have hthird := fun cls => awaited_caught hrun (.inr List.mem_cons_self) (fun _ => none) cls
  have happ : Errors.table.Lists (-603) := by unfold Errors.Table.Lists; decide
  have hnetwork : Errors.table.Lists (-203) := by unfold Errors.Table.Lists; decide
  refine ⟨_, _, _, _, hrun, rfl, rfl, ⟨?_, fun h => ?_⟩, ⟨?_, fun h => ?_⟩, ?_, fun h => ?_⟩
  · exact (hfirst _).2 (.inl ⟨_, List.mem_cons_self, rfl, happ, by decide⟩)
  · rcases (hfirst _).1 h with ⟨c, hc, -, -, hfamily⟩ | ⟨hnot, -⟩
    · cases List.mem_singleton.1 hc
      revert hfamily; decide
    · exact hnot _ List.mem_cons_self rfl
  · exact (hsecond _).2 (.inr ⟨fun c hc => by cases List.mem_singleton.1 hc; decide, hnetwork, by decide⟩)
  · rcases (hsecond _).1 h with ⟨c, hc, -⟩ | ⟨-, -, hfamily⟩
    · cases List.mem_singleton.1 hc
    · revert hfamily; decide
  · exact (hthird _).2 (.inr ⟨fun c hc => by cases List.mem_singleton.1 hc; decide, hnetwork, by decide⟩)
  · rcases (hthird _).1 h with ⟨c, hc, -⟩ | ⟨-, -, hfamily⟩
    · cases List.mem_singleton.1 hc
    · revert hfamily; decide

end Caught

end Nwep.Runtime.ConnectAsync.Awaited
