/-
The managed client: `_connect_async` with its owner thread, and the `AsyncClient` it returns.

One state holds the owner thread (its next statement, `Pc`), the hand-off of the connected client
to the awaiting coroutine, the bridge its commands cross, and the calls of `send` and `aclose`.
A step of the system is one step of one party: the owner, where `client.tick`, `client.send` and
`builder.connect` return or raise as the label says; the awaiting coroutine; a caller; or an event
loop. `send` checks `_closed` and puts its command in two steps, so that calls from several loops
interleave freely.
-/
import Nwep.Lib.Handoff
import Nwep.Lib.Run
import Nwep.Runtime.Bridge
import Nwep.Runtime.Handle

namespace Nwep.Runtime.ConnectAsync

open Lib

/-- What `AsyncClient.send` is asked to send. -/
structure Request where
  method : Int
  path : String
  body : List UInt8 := []
  headers : Option (List (String × String)) := none
deriving Repr, DecidableEq

/-- The next statement of the owner thread. -/
inductive Pc (ε ρ : Type*) where
  | connect -- client = builder.connect(target_node_id, address)
  | report (e : Exc ε) -- ready.set_exception(exc); return
  | publish -- ready.set_result(None)
  | abandon -- client.close(); return
  | get -- cmd = commands.get(timeout=_POLL_CAP_S)
  | tick -- client.tick(_now_ms())
  | send (c : Cmd Request) -- response = client.send(...), in progress
  | resolve (c : Cmd Request) (r : ρ) -- cmd.loop.call_soon_threadsafe(_resolve, ...)
  | reject (c : Cmd Request) (e : Exc ε) -- cmd.loop.call_soon_threadsafe(_reject, ...)
  | drain -- cmd = commands.get_nowait(), in _drain_pending
  | drainReject (c : Cmd Request) -- cmd.loop.call_soon_threadsafe(_reject, ...), in _drain_pending
  | close -- client.close()
  | finished

/-- The command in the owner's hands. -/
def Pc.held {ε ρ : Type*} : Pc ε ρ → Option (Cmd Request)
  | .send c | .resolve c _ | .reject c _ | .drainReject c => some c
  | _ => none

structure State (ε ρ : Type*) where
  pc : Pc ε ρ
  handoff : Handoff Unit (Exc ε)
  client : Handle
  bridge : Bridge Request (Exc ε) ρ
  closed : Bool -- AsyncClient._closed
  -- the commands of `send` calls past their `_closed` check and not yet put
  accepted : List (Cmd Request)
  closers : Nat → CloseCall
  -- the commands passed to `client.send`, and what it returned or raised, oldest first
  executed : List (Cmd Request)
  outcomes : List (Nat × Except (Exc ε) ρ)

def init {ε ρ : Type*} : State ε ρ :=
  ⟨.connect, .init, .none, .init, false, [], fun _ => .idle, [], []⟩

/-- The label of a step: the party that moves, with what the library answers it. `check` and `put`
are the two steps of a `send`, `aclose`, `acloseStop` and `acloseJoin` those of an `aclose`. -/
inductive Act (ε ρ : Type*) where
  | connect (r : Except ε Unit)
  | timeout
  | tick (r : Except ε Unit)
  | send (r : Except ε ρ)
  | owner
  | resume
  | cancelConnect
  | check (c : Cmd Request)
  | put (c : Cmd Request)
  | cancelSend (i : Nat)
  | aclose (i : Nat)
  | acloseStop (i : Nat)
  | acloseJoin (i : Nat)
  | acloseCancel (i : Nat)
  | runLoop (l : Nat)
  | closeLoop (l : Nat)

section Step

variable {ε ρ : Type*}

/-- The steps of the owner thread that no library call decides. -/
def ownerStep (s : State ε ρ) : Option (State ε ρ) :=
  match s.pc with
  | .report e =>
    -- on a cancelled future `set_exception` raises, and the owner ends by that exception
    some { s with
      pc := .finished
      handoff := { s.handoff with ready := (s.handoff.ready.setException e).getD s.handoff.ready } }
  | .publish =>
    match s.handoff.ready.setResult () with
    | some r => some { s with pc := .get, handoff := { s.handoff with ready := r } }
    | none => some { s with pc := .abandon }
  | .abandon => some { s with pc := .finished, client := s.client.close }
  | .get =>
    match s.bridge.get with
    | some (.cmd c, b) => some { s with pc := .send c, bridge := b, executed := s.executed ++ [c] }
    | some (.stop, b) => some { s with pc := .drain, bridge := b }
    | none => none
  | .resolve c r =>
    match s.bridge.callSoon c (.ok r) with
    | some b => some { s with pc := .get, bridge := b }
    | none => some { s with pc := .reject c .loopClosed }
  | .reject c e =>
    match s.bridge.callSoon c (.error e) with
    | some b => some { s with pc := .get, bridge := b }
    | none => some { s with pc := .drain }
  | .drain =>
    match s.bridge.get with
    | some (.cmd c, b) => some { s with pc := .drainReject c, bridge := b }
    | some (.stop, b) => some { s with bridge := b }
    | none => some { s with pc := .close }
  | .drainReject c =>
    match s.bridge.callSoon c (.error (.networkClosed "client is closing")) with
    | some b => some { s with pc := .drain, bridge := b }
    -- the exception leaves the `finally` block before `client.close()`
    | none => some { s with pc := .finished }
  | .close => some { s with pc := .finished, client := s.client.close }
  | _ => none

def step (s : State ε ρ) : Act ε ρ → Option (State ε ρ)
  | .connect r =>
    match s.pc, r with
    | .connect, .ok _ => some { s with pc := .publish, client := s.client.acquire }
    | .connect, .error e => some { s with pc := .report (.raised e) }
    | _, _ => none
  | .timeout =>
    match s.pc, s.bridge.get with
    | .get, none => some { s with pc := .tick }
    | _, _ => none
  | .tick r =>
    match s.pc, r with
    | .tick, .ok _ => some { s with pc := .get }
    | .tick, .error _ => some { s with pc := .drain }
    | _, _ => none
  | .send r =>
    match s.pc, r with
    | .send c, .ok v => some { s with pc := .resolve c v, outcomes := s.outcomes ++ [(c.id, .ok v)] }
    | .send c, .error e =>
      some { s with pc := .reject c (.raised e), outcomes := s.outcomes ++ [(c.id, .error (.raised e))] }
    | _, _ => none
  | .owner => ownerStep s
  | .resume => s.handoff.resume.map fun h => { s with handoff := h }
  | .cancelConnect => s.handoff.cancelTask.map fun h => { s with handoff := h }
  | .check c =>
    match s.handoff.task with
    | .returned _ => some (if s.closed then s else { s with accepted := s.accepted ++ [c] })
    | _ => none
  | .put c =>
    if c ∈ s.accepted then
      (s.bridge.put c).map fun b => { s with bridge := b, accepted := s.accepted.erase c }
    else none
  | .cancelSend i => some { s with bridge := s.bridge.cancel i }
  | .aclose i =>
    match s.handoff.task, s.closers i with
    | .returned _, .idle =>
      some (if s.closed then { s with closers := Function.update s.closers i .returned }
        else { s with closed := true, closers := Function.update s.closers i .stopping })
    | _, _ => none
  | .acloseStop i =>
    match s.closers i with
    | .stopping => some { s with bridge := s.bridge.putStop, closers := Function.update s.closers i .joining }
    | _ => none
  | .acloseJoin i =>
    match s.closers i, s.pc with
    | .joining, .finished => some { s with closers := Function.update s.closers i .returned }
    | _, _ => none
  | .acloseCancel i =>
    match s.closers i with
    | .joining => some { s with closers := Function.update s.closers i .cancelled }
    | _ => none
  | .runLoop l => (s.bridge.runLoop l).map fun b => { s with bridge := b }
  | .closeLoop l => some { s with bridge := s.bridge.closeLoop l }

end Step

/-! ## What a step can do -/

/-- The steps one by one, each with what it needs and the state it leaves. -/
inductive Step {ε ρ : Type*} (s : State ε ρ) : Act ε ρ → State ε ρ → Prop
  | connectOk {u : Unit} : s.pc = .connect →
      Step s (.connect (.ok u)) { s with pc := .publish, client := s.client.acquire }
  | connectFail {e : ε} : s.pc = .connect → Step s (.connect (.error e)) { s with pc := .report (.raised e) }
  | report {e : Exc ε} : s.pc = .report e → Step s .owner { s with
      pc := .finished
      handoff := { s.handoff with ready := (s.handoff.ready.setException e).getD s.handoff.ready } }
  | publish : s.pc = .publish → s.handoff.ready = .pending →
      Step s .owner { s with pc := .get, handoff := { s.handoff with ready := .result () } }
  | publishLate : s.pc = .publish → s.handoff.ready ≠ .pending → Step s .owner { s with pc := .abandon }
  | abandon : s.pc = .abandon → Step s .owner { s with pc := .finished, client := s.client.close }
  | take {c : Cmd Request} {b : Bridge Request (Exc ε) ρ} : s.pc = .get → s.bridge.get = some (.cmd c, b) →
      Step s .owner { s with pc := .send c, bridge := b, executed := s.executed ++ [c] }
  | takeStop {b : Bridge Request (Exc ε) ρ} : s.pc = .get → s.bridge.get = some (.stop, b) →
      Step s .owner { s with pc := .drain, bridge := b }
  | timeout : s.pc = .get → s.bridge.get = none → Step s .timeout { s with pc := .tick }
  | tickOk {u : Unit} : s.pc = .tick → Step s (.tick (.ok u)) { s with pc := .get }
  | tickFail {e : ε} : s.pc = .tick → Step s (.tick (.error e)) { s with pc := .drain }
  | sendOk {c : Cmd Request} {v : ρ} : s.pc = .send c →
      Step s (.send (.ok v)) { s with pc := .resolve c v, outcomes := s.outcomes ++ [(c.id, .ok v)] }
  | sendFail {c : Cmd Request} {e : ε} : s.pc = .send c → Step s (.send (.error e)) { s with
      pc := .reject c (.raised e)
      outcomes := s.outcomes ++ [(c.id, .error (.raised e))] }
  | resolve {c : Cmd Request} {r : ρ} {b : Bridge Request (Exc ε) ρ} : s.pc = .resolve c r →
      s.bridge.callSoon c (.ok r) = some b → Step s .owner { s with pc := .get, bridge := b }
  | resolveClosed {c : Cmd Request} {r : ρ} : s.pc = .resolve c r → s.bridge.closed c.loop = true →
      Step s .owner { s with pc := .reject c .loopClosed }
  | reject {c : Cmd Request} {e : Exc ε} {b : Bridge Request (Exc ε) ρ} : s.pc = .reject c e →
      s.bridge.callSoon c (.error e) = some b → Step s .owner { s with pc := .get, bridge := b }
  | rejectClosed {c : Cmd Request} {e : Exc ε} : s.pc = .reject c e → s.bridge.closed c.loop = true →
      Step s .owner { s with pc := .drain }
  | drain {c : Cmd Request} {b : Bridge Request (Exc ε) ρ} : s.pc = .drain → s.bridge.get = some (.cmd c, b) →
      Step s .owner { s with pc := .drainReject c, bridge := b }
  | drainStop {b : Bridge Request (Exc ε) ρ} : s.pc = .drain → s.bridge.get = some (.stop, b) →
      Step s .owner { s with bridge := b }
  | drainEmpty : s.pc = .drain → s.bridge.get = none → Step s .owner { s with pc := .close }
  | drainReject {c : Cmd Request} {b : Bridge Request (Exc ε) ρ} : s.pc = .drainReject c →
      s.bridge.callSoon c (.error (.networkClosed "client is closing")) = some b →
      Step s .owner { s with pc := .drain, bridge := b }
  | drainClosed {c : Cmd Request} : s.pc = .drainReject c → s.bridge.closed c.loop = true →
      Step s .owner { s with pc := .finished }
  | close : s.pc = .close → Step s .owner { s with pc := .finished, client := s.client.close }
  | resume {h : Handoff Unit (Exc ε)} : s.handoff.resume = some h → Step s .resume { s with handoff := h }
  | cancelConnect {h : Handoff Unit (Exc ε)} : s.handoff.cancelTask = some h →
      Step s .cancelConnect { s with handoff := h }
  | check {c : Cmd Request} : s.handoff.task = .returned () → s.closed = false →
      Step s (.check c) { s with accepted := s.accepted ++ [c] }
  | checkClosed {c : Cmd Request} : s.handoff.task = .returned () → s.closed = true → Step s (.check c) s
  | put {c : Cmd Request} {b : Bridge Request (Exc ε) ρ} : c ∈ s.accepted → s.bridge.put c = some b →
      Step s (.put c) { s with bridge := b, accepted := s.accepted.erase c }
  | cancelSend {i : Nat} : Step s (.cancelSend i) { s with bridge := s.bridge.cancel i }
  | aclose {i : Nat} : s.handoff.task = .returned () → s.closers i = .idle → s.closed = false →
      Step s (.aclose i) { s with closed := true, closers := Function.update s.closers i .stopping }
  | acloseAgain {i : Nat} : s.handoff.task = .returned () → s.closers i = .idle → s.closed = true →
      Step s (.aclose i) { s with closers := Function.update s.closers i .returned }
  | acloseStop {i : Nat} : s.closers i = .stopping → Step s (.acloseStop i)
      { s with bridge := s.bridge.putStop, closers := Function.update s.closers i .joining }
  | acloseJoin {i : Nat} : s.closers i = .joining → s.pc = .finished →
      Step s (.acloseJoin i) { s with closers := Function.update s.closers i .returned }
  | acloseCancel {i : Nat} : s.closers i = .joining →
      Step s (.acloseCancel i) { s with closers := Function.update s.closers i .cancelled }
  | runLoop {l : Nat} {b : Bridge Request (Exc ε) ρ} : s.bridge.runLoop l = some b →
      Step s (.runLoop l) { s with bridge := b }
  | closeLoop {l : Nat} : Step s (.closeLoop l) { s with bridge := s.bridge.closeLoop l }

section Cases

variable {ε ρ : Type*} {s s' : State ε ρ}

theorem ownerStep_cases (h : ownerStep s = some s') : Step s .owner s' := by
  unfold ownerStep at h
  split at h
  · rename_i e hp; cases h; exact .report hp
  · rename_i hp
    split at h
    · rename_i r hr
      obtain ⟨h1, rfl⟩ := Ready.setResult_some hr
      cases h; exact .publish hp h1
    · rename_i hr
      cases h; exact .publishLate hp (Ready.setResult_none.1 hr)
  · rename_i hp; cases h; exact .abandon hp
  · rename_i hp
    split at h
    · rename_i hg; cases h; exact .take hp hg
    · rename_i hg; cases h; exact .takeStop hp hg
    · cases h
  · rename_i hp
    split at h
    · rename_i hb; cases h; exact .resolve hp hb
    · rename_i hb; cases h; exact .resolveClosed hp (Bridge.callSoon_none.1 hb)
  · rename_i hp
    split at h
    · rename_i hb; cases h; exact .reject hp hb
    · rename_i hb; cases h; exact .rejectClosed hp (Bridge.callSoon_none.1 hb)
  · rename_i hp
    split at h
    · rename_i hg; cases h; exact .drain hp hg
    · rename_i hg; cases h; exact .drainStop hp hg
    · rename_i hg; cases h; exact .drainEmpty hp hg
  · rename_i hp
    split at h
    · rename_i hb; cases h; exact .drainReject hp hb
    · rename_i hb; cases h; exact .drainClosed hp (Bridge.callSoon_none.1 hb)
  · rename_i hp; cases h; exact .close hp
  · cases h

theorem step_cases {a : Act ε ρ} (h : step s a = some s') : Step s a s' := by
  cases a with
  | owner => exact ownerStep_cases h
  | connect r | tick r | send r =>
    simp only [step] at h
    split at h
    · rename_i hp; cases h; constructor; exact hp
    · rename_i hp; cases h; constructor; exact hp
    · cases h
  | timeout =>
    simp only [step] at h
    split at h
    · rename_i hp hg; cases h; exact .timeout hp hg
    · cases h
  | resume =>
    simp only [step] at h
    obtain ⟨x, hx, rfl⟩ := Option.map_eq_some_iff.1 h; exact .resume hx
  | cancelConnect =>
    simp only [step] at h
    obtain ⟨x, hx, rfl⟩ := Option.map_eq_some_iff.1 h; exact .cancelConnect hx
  | check c =>
    simp only [step] at h
    split at h
    · rename_i ht
      split at h
      · rename_i hc; cases h; exact .checkClosed ht hc
      · rename_i hc; cases h; exact .check ht (by simpa using hc)
    · cases h
  | put c =>
    simp only [step] at h
    split at h
    · rename_i hm
      obtain ⟨x, hx, rfl⟩ := Option.map_eq_some_iff.1 h; exact .put hm hx
    · cases h
  | cancelSend i => cases h; exact .cancelSend
  | aclose i =>
    simp only [step] at h
    split at h
    · rename_i ht hi
      split at h
      · rename_i hc; cases h; exact .acloseAgain ht hi hc
      · rename_i hc; cases h; exact .aclose ht hi (by simpa using hc)
    · cases h
  | acloseStop i =>
    simp only [step] at h
    split at h
    · rename_i hi; cases h; exact .acloseStop hi
    · cases h
  | acloseJoin i =>
    simp only [step] at h
    split at h
    · rename_i hi hp; cases h; exact .acloseJoin hi hp
    · cases h
  | acloseCancel i =>
    simp only [step] at h
    split at h
    · rename_i hi; cases h; exact .acloseCancel hi
    · cases h
  | runLoop l =>
    simp only [step] at h
    obtain ⟨x, hx, rfl⟩ := Option.map_eq_some_iff.1 h; exact .runLoop hx
  | closeLoop l => cases h; exact .closeLoop

end Cases

end Nwep.Runtime.ConnectAsync
