/-
The managed server: `_serve` with its owner thread, and the `RunningServer` it returns.

The owner thread is a program counter, `Pc`, moved by the calls it makes: `Pc.next` says which
statement follows when a call returns or raises, and `Blocking.next` the same inside
`_resolve_blocking`. The steps that no library call decides (the publication, the stop check, the
command queue, the callbacks, the closes) are `ownerStep`.
-/
import Mathlib.Data.Rat.Defs
import Mathlib.Algebra.Order.Field.Rat
import Nwep.Lib.Handoff
import Nwep.Lib.Run
import Nwep.Runtime.Bridge
import Nwep.Runtime.Handle

namespace Nwep.Runtime.Serve

open Lib

/-- `_POLL_CAP_S`, in seconds. -/
def pollCapS : ℚ := 1 / 10

/-- `_cap`: a next-timeout in ms as a capped wait in seconds. -/
def cap : Option Nat → ℚ
  | none => pollCapS
  | some ms => min (ms / 1000) pollCapS

/-- What the builder holds: whether `_dht_contacts` is set, and `_announce`. -/
structure Config (α : Type*) where
  hasDht : Bool
  announce : Option α
deriving Repr, DecidableEq

/-- `_Resolve` with its target and timeout in seconds, or `_DhtMetrics`. -/
inductive Command (ν : Type*) where
  | resolve (target : ν) (timeout : ℚ)
  | dhtMetrics
deriving DecidableEq

/-- What a command's future is completed with. -/
inductive Answer (α μ : Type*) where
  | address (a : α)
  | metrics (m : μ)
deriving Repr, DecidableEq

/-! ## The owner thread -/

/-- A call the owner makes, with what it returns or raises; `now` is a reading of `_now_secs`. -/
inductive Call (ν α μ ε : Type*) where
  | build (r : Except ε Unit)
  | attach (r : Except ε Unit)
  | bootstrap (now : Int) (r : Except ε Unit)
  | nodeId (r : Except ε ν)
  | localPort (r : Except ε Nat)
  | fileno (r : Except ε Unit)
  | tick (r : Except ε Unit)
  | dhtTick (now : Int) (r : Except ε Unit)
  | announce (r : Except ε Unit)
  | nextTimeout (r : Except ε (Option Nat))
  | dhtNextTimeout (r : Except ε (Option Nat))
  | wait
  | lookupResult (r : Except ε (Option α))
  | startLookup (now : Int) (r : Except ε Unit)
  | monotonic (now : ℚ)
  | metrics (r : Except ε μ)

/-- The next statement of `_resolve_blocking`. -/
inductive Blocking where
  | lookup -- record = dht.lookup_result(target)
  | startLookup -- dht.start_lookup(target, _now_secs())
  | deadline -- deadline = time.monotonic() + timeout_s
  | check (deadline : ℚ) -- while time.monotonic() < deadline
  | tick (deadline : ℚ) -- server.tick(_now_ms())
  | dhtTick (deadline : ℚ) -- dht.tick(secs)
  | again (deadline : ℚ) -- record = dht.lookup_result(target)
  | fileno (deadline : ℚ) -- server.fileno()
  | nextTimeout (deadline : ℚ) -- _cap(dht.next_timeout(secs))
  | wait (deadline timeout : ℚ) -- _wait_readable(...)
deriving DecidableEq

/-- How `_resolve_blocking` goes on after a call. -/
inductive Blocked (α ε : Type*) where
  | next (b : Blocking)
  | returned (a : α)
  | raised (e : Exc ε)

/-- The next statement of the owner thread. -/
inductive Pc (ν α μ ε : Type*) where
  | build -- server = builder.build()
  | attach -- dht = Dht.attach(server, ...)
  | bootstrap -- dht.bootstrap(_now_secs())
  | giveUp (e : Exc ε) -- server.close()
  | report (e : Exc ε) -- ready.set_exception(exc); return
  | nodeId -- server.node_id
  | localPort (id : ν) -- server.local_port
  | publish (id : ν) (port : Nat) -- ready.set_result((server.node_id, server.local_port))
  | abandon -- server.close(); return
  | fileno -- fd = server.fileno()
  | check -- while not stop.is_set()
  | service -- cmd = commands.get_nowait()
  | blocking (c : Cmd (Command ν)) (timeout : ℚ) (b : Blocking) -- _resolve_blocking(...)
  | metrics (c : Cmd (Command ν)) -- dht.metrics()
  | resolve (c : Cmd (Command ν)) (r : Answer α μ) -- cmd.loop.call_soon_threadsafe(_resolve, ...)
  | reject (c : Cmd (Command ν)) (e : Exc ε) -- cmd.loop.call_soon_threadsafe(_reject, ...)
  | tick -- server.tick(_now_ms())
  | dhtTick -- dht.tick(now)
  | announce (now : Int) -- dht.announce(builder._announce, now)
  | nextTimeout -- timeout = server.next_timeout(_now_ms())
  | wait (timeout : ℚ) -- _wait_readable(fd, _cap(timeout))
  | dhtClose -- dht.close()
  | serverClose -- server.close()
  | finished

section Owner

variable {ν α μ ε : Type*}

/-- `_resolve_blocking`, one call at a time. -/
def Blocking.next (timeout : ℚ) : Blocking → Call ν α μ ε → Option (Blocked α ε)
  | .lookup, .lookupResult (.ok (some a)) => some (.returned a)
  | .lookup, .lookupResult (.ok none) => some (.next .startLookup)
  | .lookup, .lookupResult (.error e) => some (.raised (.raised e))
  | .startLookup, .startLookup _ (.ok _) => some (.next .deadline)
  | .startLookup, .startLookup _ (.error e) => some (.raised (.raised e))
  | .deadline, .monotonic t => some (.next (.check (t + timeout)))
  | .check d, .monotonic t =>
    if t < d then some (.next (.tick d))
    else some (.raised (.identityNotFound "dht lookup timed out with no record"))
  | .tick d, .tick (.ok _) => some (.next (.dhtTick d))
  | .tick _, .tick (.error e) => some (.raised (.raised e))
  | .dhtTick d, .dhtTick _ (.ok _) => some (.next (.again d))
  | .dhtTick _, .dhtTick _ (.error e) => some (.raised (.raised e))
  | .again _, .lookupResult (.ok (some a)) => some (.returned a)
  | .again d, .lookupResult (.ok none) => some (.next (.fileno d))
  | .again _, .lookupResult (.error e) => some (.raised (.raised e))
  | .fileno d, .fileno (.ok _) => some (.next (.nextTimeout d))
  | .fileno _, .fileno (.error e) => some (.raised (.raised e))
  | .nextTimeout d, .dhtNextTimeout (.ok t) => some (.next (.wait d (cap t)))
  | .nextTimeout _, .dhtNextTimeout (.error e) => some (.raised (.raised e))
  | .wait d _, .wait => some (.next (.check d))
  | _, _ => none

/-- The `finally` block: the dht first, when there is one. -/
def closing (cfg : Config α) : Pc ν α μ ε := if cfg.hasDht then .dhtClose else .serverClose

/-- The statement after a call; `last` is `last_announce`. -/
def Pc.next (cfg : Config α) (last : Int) : Pc ν α μ ε → Call ν α μ ε → Option (Pc ν α μ ε)
  | .build, .build (.ok _) => some (if cfg.hasDht then .attach else .nodeId)
  | .build, .build (.error e) => some (.report (.raised e))
  | .attach, .attach (.ok _) => some .bootstrap
  | .attach, .attach (.error e) => some (.giveUp (.raised e))
  | .bootstrap, .bootstrap _ (.ok _) => some .nodeId
  | .bootstrap, .bootstrap _ (.error e) => some (.giveUp (.raised e))
  | .nodeId, .nodeId (.ok id) => some (.localPort id)
  -- `except InvalidStateError` does not catch these two: the owner ends by the exception
  | .nodeId, .nodeId (.error _) => some .finished
  | .localPort _, .localPort (.error _) => some .finished
  | .localPort id, .localPort (.ok port) => some (.publish id port)
  | .fileno, .fileno (.ok _) => some .check
  | .fileno, .fileno (.error _) => some (closing cfg)
  | .blocking c timeout b, k => (b.next timeout k).map fun
    | .next b => .blocking c timeout b
    | .returned a => .resolve c (.address a)
    | .raised e => .reject c e
  | .metrics c, .metrics (.ok m) => some (.resolve c (.metrics m))
  | .metrics c, .metrics (.error e) => some (.reject c (.raised e))
  | .tick, .tick (.ok _) => some (if cfg.hasDht then .dhtTick else .nextTimeout)
  | .tick, .tick (.error _) => some (closing cfg)
  | .dhtTick, .dhtTick now (.ok _) =>
    some (if cfg.announce.isSome ∧ now - last ≥ 60 then .announce now else .nextTimeout)
  | .dhtTick, .dhtTick _ (.error _) => some (closing cfg)
  | .announce _, .announce (.ok _) => some .nextTimeout
  | .announce _, .announce (.error _) => some (closing cfg)
  | .nextTimeout, .nextTimeout (.ok t) => some (.wait (cap t))
  | .nextTimeout, .nextTimeout (.error _) => some (closing cfg)
  | .wait _, .wait => some .check
  | _, _ => none

/-- The call raises inside the loop, and not inside the handling of a command. -/
def Pc.fails : Pc ν α μ ε → Call ν α μ ε → Bool
  | .fileno, .fileno (.error _) | .tick, .tick (.error _) | .dhtTick, .dhtTick _ (.error _)
  | .announce _, .announce (.error _) | .nextTimeout, .nextTimeout (.error _) => true
  | _, _ => false

/-- The command in the owner's hands. -/
def Pc.held : Pc ν α μ ε → Option (Cmd (Command ν))
  | .blocking c _ _ | .metrics c | .resolve c _ | .reject c _ => some c
  | _ => none

/-- `_service_server_commands` with the command `c` taken. -/
def dispatch (c : Cmd (Command ν)) : Pc ν α μ ε :=
  match c.payload with
  | .resolve _ timeout => .blocking c timeout .lookup
  | .dhtMetrics => .metrics c

end Owner

/-! ## The system -/

structure State (ν α μ ε : Type*) where
  pc : Pc ν α μ ε
  handoff : Handoff (ν × Nat) (Exc ε)
  server : Handle
  dht : Handle
  bridge : Bridge (Command ν) (Exc ε) (Answer α μ)
  stop : Bool
  lastAnnounce : Int
  closers : Nat → CloseCall

def init {ν α μ ε : Type*} : State ν α μ ε :=
  ⟨.build, .init, .none, .none, .init, false, 0, fun _ => .idle⟩

/-- The label of a step: `put` is a call of `RunningServer.resolve` or `dht_metrics`. -/
inductive Act (ν α μ ε : Type*) where
  | call (k : Call ν α μ ε)
  | owner
  | resume
  | cancelServe
  | put (c : Cmd (Command ν))
  | cancelCommand (i : Nat)
  | shutdown (i : Nat)
  | shutdownJoin (i : Nat)
  | shutdownCancel (i : Nat)
  | runLoop (l : Nat)
  | closeLoop (l : Nat)

section Step

variable {ν α μ ε : Type*}

/-- The locals of the owner that a call sets when it returns. -/
def State.note (s : State ν α μ ε) (k : Call ν α μ ε) : State ν α μ ε :=
  match s.pc, k with
  | .build, .build (.ok _) => { s with server := s.server.acquire }
  | .attach, .attach (.ok _) => { s with dht := s.dht.acquire }
  | .announce now, .announce (.ok _) => { s with lastAnnounce := now }
  | _, _ => s

/-- The steps of the owner thread that no library call decides. -/
def ownerStep (cfg : Config α) (s : State ν α μ ε) : Option (State ν α μ ε) :=
  match s.pc with
  | .giveUp e => some { s with pc := .report e, server := s.server.close }
  | .report e =>
    -- on a cancelled future `set_exception` raises, and the owner ends by that exception
    some { s with
      pc := .finished
      handoff := { s.handoff with ready := (s.handoff.ready.setException e).getD s.handoff.ready } }
  | .publish id port =>
    match s.handoff.ready.setResult (id, port) with
    | some r => some { s with pc := .fileno, handoff := { s.handoff with ready := r } }
    | none => some { s with pc := .abandon }
  | .abandon => some { s with pc := .finished, server := s.server.close }
  | .check => if s.stop then some { s with pc := closing cfg } else some { s with pc := .service }
  | .service =>
    match s.bridge.get with
    | some (.cmd c, b) => some { s with pc := dispatch c, bridge := b }
    | some (.stop, b) => some { s with bridge := b }
    | none => some { s with pc := .tick }
  | .resolve c r =>
    match s.bridge.callSoon c (.ok r) with
    | some b => some { s with pc := .service, bridge := b }
    | none => some { s with pc := .reject c .loopClosed }
  | .reject c e =>
    match s.bridge.callSoon c (.error e) with
    | some b => some { s with pc := .service, bridge := b }
    | none => some { s with pc := closing cfg }
  | .dhtClose => some { s with pc := .serverClose, dht := s.dht.close }
  | .serverClose => some { s with pc := .finished, server := s.server.close }
  | _ => none

def step (cfg : Config α) (s : State ν α μ ε) : Act ν α μ ε → Option (State ν α μ ε)
  | .call k => (s.pc.next cfg s.lastAnnounce k).map fun p => { s.note k with pc := p }
  | .owner => ownerStep cfg s
  | .resume => s.handoff.resume.map fun h => { s with handoff := h }
  | .cancelServe => s.handoff.cancelTask.map fun h => { s with handoff := h }
  | .put c =>
    -- without a dht `_commands` is None, and both methods raise `ConfigMissing`
    match s.handoff.task, cfg.hasDht with
    | .returned _, true => (s.bridge.put c).map fun b => { s with bridge := b }
    | _, _ => none
  | .cancelCommand i => some { s with bridge := s.bridge.cancel i }
  | .shutdown i =>
    match s.handoff.task, s.closers i with
    | .returned _, .idle => some { s with stop := true, closers := Function.update s.closers i .joining }
    | _, _ => none
  | .shutdownJoin i =>
    match s.closers i, s.pc with
    | .joining, .finished => some { s with closers := Function.update s.closers i .returned }
    | _, _ => none
  | .shutdownCancel i =>
    match s.closers i with
    | .joining => some { s with closers := Function.update s.closers i .cancelled }
    | _ => none
  | .runLoop l => (s.bridge.runLoop l).map fun b => { s with bridge := b }
  | .closeLoop l => some { s with bridge := s.bridge.closeLoop l }

end Step

/-! ## What a step can do -/

/-- The calls one by one, each with the statement it leads to. -/
inductive Next {ν α μ ε : Type*} (cfg : Config α) (last : Int) : Pc ν α μ ε → Call ν α μ ε → Pc ν α μ ε → Prop
  | buildDht {u : Unit} : cfg.hasDht = true → Next cfg last .build (.build (.ok u)) .attach
  | build {u : Unit} : cfg.hasDht = false → Next cfg last .build (.build (.ok u)) .nodeId
  | buildFail {e : ε} : Next cfg last .build (.build (.error e)) (.report (.raised e))
  | attach {u : Unit} : Next cfg last .attach (.attach (.ok u)) .bootstrap
  | attachFail {e : ε} : Next cfg last .attach (.attach (.error e)) (.giveUp (.raised e))
  | bootstrap {now : Int} {u : Unit} : Next cfg last .bootstrap (.bootstrap now (.ok u)) .nodeId
  | bootstrapFail {now : Int} {e : ε} : Next cfg last .bootstrap (.bootstrap now (.error e)) (.giveUp (.raised e))
  | nodeId {id : ν} : Next cfg last .nodeId (.nodeId (.ok id)) (.localPort id)
  | nodeIdFail {e : ε} : Next cfg last .nodeId (.nodeId (.error e)) .finished
  | localPort {id : ν} {port : Nat} : Next cfg last (.localPort id) (.localPort (.ok port)) (.publish id port)
  | localPortFail {id : ν} {e : ε} : Next cfg last (.localPort id) (.localPort (.error e)) .finished
  | fileno {u : Unit} : Next cfg last .fileno (.fileno (.ok u)) .check
  | blocked {c : Cmd (Command ν)} {timeout : ℚ} {b b' : Blocking} {k : Call ν α μ ε} :
      b.next timeout k = some (.next b') → Next cfg last (.blocking c timeout b) k (.blocking c timeout b')
  | resolved {c : Cmd (Command ν)} {timeout : ℚ} {b : Blocking} {k : Call ν α μ ε} {x : α} :
      b.next timeout k = some (.returned x) → Next cfg last (.blocking c timeout b) k (.resolve c (.address x))
  | unresolved {c : Cmd (Command ν)} {timeout : ℚ} {b : Blocking} {k : Call ν α μ ε} {e : Exc ε} :
      b.next timeout k = some (.raised e) → Next cfg last (.blocking c timeout b) k (.reject c e)
  | metrics {c : Cmd (Command ν)} {m : μ} : Next cfg last (.metrics c) (.metrics (.ok m)) (.resolve c (.metrics m))
  | metricsFail {c : Cmd (Command ν)} {e : ε} :
      Next cfg last (.metrics c) (.metrics (.error e)) (.reject c (.raised e))
  | tickDht {u : Unit} : cfg.hasDht = true → Next cfg last .tick (.tick (.ok u)) .dhtTick
  | tick {u : Unit} : cfg.hasDht = false → Next cfg last .tick (.tick (.ok u)) .nextTimeout
  | dhtTickDue {now : Int} {u : Unit} : cfg.announce.isSome ∧ now - last ≥ 60 →
      Next cfg last .dhtTick (.dhtTick now (.ok u)) (.announce now)
  | dhtTick {now : Int} {u : Unit} : Next cfg last .dhtTick (.dhtTick now (.ok u)) .nextTimeout
  | announce {now : Int} {u : Unit} : Next cfg last (.announce now) (.announce (.ok u)) .nextTimeout
  | nextTimeout {t : Option Nat} : Next cfg last .nextTimeout (.nextTimeout (.ok t)) (.wait (cap t))
  | wait {timeout : ℚ} : Next cfg last (.wait timeout) .wait .check
  | fail {p : Pc ν α μ ε} {k : Call ν α μ ε} : p.fails k = true → Next cfg last p k (closing cfg)

/-- The steps one by one, each with what it needs and the state it leaves. -/
inductive Step {ν α μ ε : Type*} (cfg : Config α) (s : State ν α μ ε) : Act ν α μ ε → State ν α μ ε → Prop
  | call {k : Call ν α μ ε} {p : Pc ν α μ ε} : Next cfg s.lastAnnounce s.pc k p →
      Step cfg s (.call k) { s.note k with pc := p }
  | giveUp {e : Exc ε} : s.pc = .giveUp e → Step cfg s .owner { s with pc := .report e, server := s.server.close }
  | report {e : Exc ε} : s.pc = .report e → Step cfg s .owner { s with
      pc := .finished
      handoff := { s.handoff with ready := (s.handoff.ready.setException e).getD s.handoff.ready } }
  | publish {id : ν} {port : Nat} : s.pc = .publish id port → s.handoff.ready = .pending →
      Step cfg s .owner { s with pc := .fileno, handoff := { s.handoff with ready := .result (id, port) } }
  | publishLate {id : ν} {port : Nat} : s.pc = .publish id port → s.handoff.ready ≠ .pending →
      Step cfg s .owner { s with pc := .abandon }
  | abandon : s.pc = .abandon → Step cfg s .owner { s with pc := .finished, server := s.server.close }
  | check : s.pc = .check → s.stop = false → Step cfg s .owner { s with pc := .service }
  | checkStop : s.pc = .check → s.stop = true → Step cfg s .owner { s with pc := closing cfg }
  | take {c : Cmd (Command ν)} {b : Bridge (Command ν) (Exc ε) (Answer α μ)} : s.pc = .service →
      s.bridge.get = some (.cmd c, b) → Step cfg s .owner { s with pc := dispatch c, bridge := b }
  | takeStop {b : Bridge (Command ν) (Exc ε) (Answer α μ)} : s.pc = .service →
      s.bridge.get = some (.stop, b) → Step cfg s .owner { s with bridge := b }
  | serviced : s.pc = .service → s.bridge.get = none → Step cfg s .owner { s with pc := .tick }
  | resolve {c : Cmd (Command ν)} {r : Answer α μ} {b : Bridge (Command ν) (Exc ε) (Answer α μ)} :
      s.pc = .resolve c r → s.bridge.callSoon c (.ok r) = some b →
      Step cfg s .owner { s with pc := .service, bridge := b }
  | resolveClosed {c : Cmd (Command ν)} {r : Answer α μ} : s.pc = .resolve c r →
      s.bridge.closed c.loop = true → Step cfg s .owner { s with pc := .reject c .loopClosed }
  | reject {c : Cmd (Command ν)} {e : Exc ε} {b : Bridge (Command ν) (Exc ε) (Answer α μ)} :
      s.pc = .reject c e → s.bridge.callSoon c (.error e) = some b →
      Step cfg s .owner { s with pc := .service, bridge := b }
  | rejectClosed {c : Cmd (Command ν)} {e : Exc ε} : s.pc = .reject c e →
      s.bridge.closed c.loop = true → Step cfg s .owner { s with pc := closing cfg }
  | dhtClose : s.pc = .dhtClose → Step cfg s .owner { s with pc := .serverClose, dht := s.dht.close }
  | serverClose : s.pc = .serverClose → Step cfg s .owner { s with pc := .finished, server := s.server.close }
  | resume {h : Handoff (ν × Nat) (Exc ε)} : s.handoff.resume = some h → Step cfg s .resume { s with handoff := h }
  | cancelServe {h : Handoff (ν × Nat) (Exc ε)} : s.handoff.cancelTask = some h →
      Step cfg s .cancelServe { s with handoff := h }
  | put {c : Cmd (Command ν)} {b : Bridge (Command ν) (Exc ε) (Answer α μ)} {v : ν × Nat} :
      s.handoff.task = .returned v → cfg.hasDht = true → s.bridge.put c = some b →
      Step cfg s (.put c) { s with bridge := b }
  | cancelCommand {i : Nat} : Step cfg s (.cancelCommand i) { s with bridge := s.bridge.cancel i }
  | shutdown {i : Nat} {v : ν × Nat} : s.handoff.task = .returned v → s.closers i = .idle →
      Step cfg s (.shutdown i) { s with stop := true, closers := Function.update s.closers i .joining }
  | shutdownJoin {i : Nat} : s.closers i = .joining → s.pc = .finished →
      Step cfg s (.shutdownJoin i) { s with closers := Function.update s.closers i .returned }
  | shutdownCancel {i : Nat} : s.closers i = .joining →
      Step cfg s (.shutdownCancel i) { s with closers := Function.update s.closers i .cancelled }
  | runLoop {l : Nat} {b : Bridge (Command ν) (Exc ε) (Answer α μ)} : s.bridge.runLoop l = some b →
      Step cfg s (.runLoop l) { s with bridge := b }
  | closeLoop {l : Nat} : Step cfg s (.closeLoop l) { s with bridge := s.bridge.closeLoop l }

section Cases

variable {ν α μ ε : Type*} {cfg : Config α} {s s' : State ν α μ ε}

theorem next_cases {last : Int} {p p' : Pc ν α μ ε} {k : Call ν α μ ε} (h : p.next cfg last k = some p') :
    Next cfg last p k p' := by
  unfold Pc.next at h
  split at h
  · cases h
    split
    · rename_i hd; exact .buildDht hd
    · rename_i hd; exact .build (by simpa using hd)
  · cases h; exact .buildFail
  · cases h; exact .attach
  · cases h; exact .attachFail
  · cases h; exact .bootstrap
  · cases h; exact .bootstrapFail
  · cases h; exact .nodeId
  · cases h; exact .nodeIdFail
  · cases h; exact .localPortFail
  · cases h; exact .localPort
  · cases h; exact .fileno
  · cases h; exact .fail rfl
  · obtain ⟨r, hr, rfl⟩ := Option.map_eq_some_iff.1 h
    cases r with
    | next b => exact .blocked hr
    | returned x => exact .resolved hr
    | raised e => exact .unresolved hr
  · cases h; exact .metrics
  · cases h; exact .metricsFail
  · cases h
    split
    · rename_i hd; exact .tickDht hd
    · rename_i hd; exact .tick (by simpa using hd)
  · cases h; exact .fail rfl
  · cases h
    split
    · rename_i hd; exact .dhtTickDue hd
    · exact .dhtTick
  · cases h; exact .fail rfl
  · cases h; exact .announce
  · cases h; exact .fail rfl
  · cases h; exact .nextTimeout
  · cases h; exact .fail rfl
  · cases h; exact .wait
  · cases h

theorem ownerStep_cases (h : ownerStep cfg s = some s') : Step cfg s .owner s' := by
  unfold ownerStep at h
  split at h
  · rename_i hp; cases h; exact .giveUp hp
  · rename_i hp; cases h; exact .report hp
  · rename_i hp
    split at h
    · rename_i hr
      obtain ⟨h1, rfl⟩ := Ready.setResult_some hr
      cases h; exact .publish hp h1
    · rename_i hr
      cases h; exact .publishLate hp (Ready.setResult_none.1 hr)
  · rename_i hp; cases h; exact .abandon hp
  · rename_i hp
    split at h
    · rename_i hs; cases h; exact .checkStop hp hs
    · rename_i hs; cases h; exact .check hp (by simpa using hs)
  · rename_i hp
    split at h
    · rename_i hg; cases h; exact .take hp hg
    · rename_i hg; cases h; exact .takeStop hp hg
    · rename_i hg; cases h; exact .serviced hp hg
  · rename_i hp
    split at h
    · rename_i hb; cases h; exact .resolve hp hb
    · rename_i hb; cases h; exact .resolveClosed hp (Bridge.callSoon_none.1 hb)
  · rename_i hp
    split at h
    · rename_i hb; cases h; exact .reject hp hb
    · rename_i hb; cases h; exact .rejectClosed hp (Bridge.callSoon_none.1 hb)
  · rename_i hp; cases h; exact .dhtClose hp
  · rename_i hp; cases h; exact .serverClose hp
  · cases h

theorem step_cases {a : Act ν α μ ε} (h : step cfg s a = some s') : Step cfg s a s' := by
  cases a with
  | call k =>
    simp only [step] at h
    obtain ⟨p, hp, rfl⟩ := Option.map_eq_some_iff.1 h; exact .call (next_cases hp)
  | owner => exact ownerStep_cases h
  | resume =>
    simp only [step] at h
    obtain ⟨x, hx, rfl⟩ := Option.map_eq_some_iff.1 h; exact .resume hx
  | cancelServe =>
    simp only [step] at h
    obtain ⟨x, hx, rfl⟩ := Option.map_eq_some_iff.1 h; exact .cancelServe hx
  | put c =>
    simp only [step] at h
    split at h
    · rename_i ht hd
      obtain ⟨x, hx, rfl⟩ := Option.map_eq_some_iff.1 h; exact .put ht hd hx
    · cases h
  | cancelCommand i => cases h; exact .cancelCommand
  | shutdown i =>
    simp only [step] at h
    split at h
    · rename_i ht hi; cases h; exact .shutdown ht hi
    · cases h
  | shutdownJoin i =>
    simp only [step] at h
    split at h
    · rename_i hi hp; cases h; exact .shutdownJoin hi hp
    · cases h
  | shutdownCancel i =>
    simp only [step] at h
    split at h
    · rename_i hi; cases h; exact .shutdownCancel hi
    · cases h
  | runLoop l =>
    simp only [step] at h
    obtain ⟨x, hx, rfl⟩ := Option.map_eq_some_iff.1 h; exact .runLoop hx
  | closeLoop l => cases h; exact .closeLoop

end Cases

/-! ## A start-up -/

/-- A server with a dht and no address to announce. -/
def withDht : Config Nat := ⟨true, none⟩

/-- The start-up of that server, up to its stop check. -/
def startUp : List (Act Nat Nat Nat Unit) :=
  [.call (.build (.ok ())), .call (.attach (.ok ())), .call (.bootstrap 0 (.ok ())), .call (.nodeId (.ok 5)),
    .call (.localPort (.ok 4433)), .owner, .resume, .call (.fileno (.ok ()))]

end Nwep.Runtime.Serve
