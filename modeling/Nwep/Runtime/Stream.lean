/-
The managed stream: `_stream` with its owner thread, and the `AsyncStream` it returns.

The owner reads the body and puts what it read on the items queue. A `recv` call is two parties: a
worker of the thread pool, blocked in `items.get`, and the task that awaits the worker. Cancelling
the task reaches a worker only while it is still queued in the pool; a running worker goes on, and
what it takes is dropped.
-/
import Mathlib.Logic.Function.Basic
import Nwep.Lib.Handoff
import Nwep.Lib.Run
import Nwep.Lib.Fifo
import Nwep.Runtime.Handle

namespace Nwep.Runtime.Stream

open Lib

abbrev Headers := List (String × String)

/-- What the items queue carries: a chunk, an exception, or the sentinel `_STREAM_END`. -/
inductive Entry (ε : Type*) where
  | chunk (data : List UInt8)
  | exc (e : ε)
  | streamEnd
deriving Repr, DecidableEq

/-- The chunks among queue entries, in order. -/
def chunks {ε : Type*} (l : List (Entry ε)) : List (List UInt8) :=
  l.filterMap fun
    | .chunk data => some data
    | _ => none

/-! ## The owner thread -/

/-- A library call of the owner, with what it returns or raises. -/
inductive Call (σ κ ε : Type*) where
  | connect (r : Except ε Unit)
  | openStream (r : Except ε Unit)
  | response (r : Except ε Unit)
  | status (r : Except ε σ)
  | headers (r : Except ε Headers)
  | peerPubkey (r : Except ε κ)
  | recv (r : Except ε (List UInt8 × Bool))
  | verify (r : Except ε Unit)

/-- The next statement of the owner thread. -/
inductive Pc (σ ε : Type*) where
  | connect -- client = builder.connect(target_node_id, address)
  | openStream -- stream = client.open_stream(method, path)
  | response -- meta = stream.response()
  | status -- meta.status
  | headers (status : σ) -- list(meta.headers())
  | giveUp (e : ε) -- client.close()
  | report (e : ε) -- ready.set_exception(exc); return
  | publish (status : σ) (headers : Headers) -- ready.set_result((status, headers))
  | abandon -- stream.close()
  | abandonClient -- client.close(); return
  | peerPubkey -- peer = client.peer_pubkey
  | check -- while not stop.is_set()
  | recv -- chunk, ended = stream.recv()
  | put (chunk : List UInt8) (ended : Bool) -- items.put(chunk)
  | verify -- stream.verify(peer)
  | fail (e : ε) -- items.put(exc)
  | putEnd -- items.put(_STREAM_END); return
  | streamClose -- stream.close()
  | clientClose -- client.close()
  | finished

section Owner

variable {σ κ ε : Type*}

/-- The statement after `if ended`. -/
def afterRead (ended : Bool) : Pc σ ε := if ended then .verify else .check

/-- The statement after a call. -/
def Pc.next : Pc σ ε → Call σ κ ε → Option (Pc σ ε)
  | .connect, .connect (.ok _) => some .openStream
  | .connect, .connect (.error e) => some (.report e)
  | .openStream, .openStream (.ok _) => some .response
  | .openStream, .openStream (.error e) => some (.giveUp e)
  | .response, .response (.ok _) => some .status
  | .response, .response (.error e) => some (.giveUp e)
  | .status, .status (.ok v) => some (.headers v)
  | .status, .status (.error e) => some (.giveUp e)
  | .headers v, .headers (.ok h) => some (.publish v h)
  | .headers _, .headers (.error e) => some (.giveUp e)
  | .peerPubkey, .peerPubkey (.ok _) => some .check
  | .peerPubkey, .peerPubkey (.error e) => some (.fail e)
  -- `if chunk`: an empty chunk is not put
  | .recv, .recv (.ok (chunk, ended)) => some (if chunk = [] then afterRead ended else .put chunk ended)
  | .recv, .recv (.error e) => some (.fail e)
  | .verify, .verify (.ok _) => some .putEnd
  | .verify, .verify (.error e) => some (.fail e)
  | _, _ => none

end Owner

/-! ## The system -/

/-- The pool worker of a `recv` call. -/
inductive Worker (ε : Type*) where
  | none
  | queued
  | running
  | holding (x : Entry ε)
  | delivered
  | skipped -- cancelled before a thread of the pool took it
deriving Repr, DecidableEq

/-- The task of a `recv` call. -/
inductive RecvTask (ε : Type*) where
  | idle
  | waiting
  | returned (data : Option (List UInt8))
  | raised (e : ε)
  | cancelled
deriving Repr, DecidableEq

structure Recv (ε : Type*) where
  task : RecvTask ε
  worker : Worker ε
deriving Repr, DecidableEq

structure State (σ κ ε : Type*) where
  pc : Pc σ ε
  handoff : Handoff (σ × Headers) ε
  client : Handle
  stream : Handle
  leading : Handle -- the response `meta`
  peer : Option κ
  stop : Bool
  items : Fifo (Entry ε)
  recvs : Nat → Recv ε
  closers : Nat → CloseCall
  -- what `stream.recv` returned, the keys `stream.verify` returned normally for, and what the `recv`
  -- calls returned, oldest first
  reads : List (List UInt8 × Bool)
  verified : List κ
  delivered : List (Option (List UInt8))

def init {σ κ ε : Type*} : State σ κ ε :=
  ⟨.connect, .init, .none, .none, .none, none, false, .empty, fun _ => ⟨.idle, .none⟩, fun _ => .idle, [], [], []⟩

/-- The label of a step. `recv i` submits the worker of the call `i`, `start` is a thread of the pool
taking it, `take` its `items.get` returning, and `deliver` the task resuming with the entry. -/
inductive Act (σ κ ε : Type*) where
  | call (k : Call σ κ ε)
  | owner
  | resume
  | cancelStream
  | recv (i : Nat)
  | start (i : Nat)
  | take (i : Nat)
  | deliver (i : Nat)
  | cancelRecv (i : Nat)
  | aclose (i : Nat)
  | acloseJoin (i : Nat)
  | acloseCancel (i : Nat)

section Step

variable {σ κ ε : Type*}

/-- The locals of the owner that a call sets when it returns, and the logs of the reads. -/
def State.note (s : State σ κ ε) : Call σ κ ε → State σ κ ε
  | .connect (.ok _) => { s with client := s.client.acquire }
  | .openStream (.ok _) => { s with stream := s.stream.acquire }
  | .response (.ok _) => { s with leading := s.leading.acquire }
  | .peerPubkey (.ok key) => { s with peer := some key }
  | .recv (.ok r) => { s with reads := s.reads ++ [r] }
  | .verify (.ok _) => { s with verified := s.verified ++ s.peer.toList }
  | _ => s

/-- The steps of the owner thread that no library call decides. -/
def ownerStep (s : State σ κ ε) : Option (State σ κ ε) :=
  match s.pc with
  | .giveUp e => some { s with pc := .report e, client := s.client.close }
  | .report e =>
    -- on a cancelled future `set_exception` raises, and the owner ends by that exception
    some { s with
      pc := .finished
      handoff := { s.handoff with ready := (s.handoff.ready.setException e).getD s.handoff.ready } }
  | .publish v h =>
    match s.handoff.ready.setResult (v, h) with
    | some r => some { s with pc := .peerPubkey, handoff := { s.handoff with ready := r } }
    | none => some { s with pc := .abandon }
  | .abandon => some { s with pc := .abandonClient, stream := s.stream.close }
  | .abandonClient => some { s with pc := .finished, client := s.client.close }
  | .check => if s.stop then some { s with pc := .streamClose } else some { s with pc := .recv }
  | .put chunk ended => some { s with pc := afterRead ended, items := s.items.put (.chunk chunk) }
  | .fail e => some { s with pc := .streamClose, items := s.items.put (.exc e) }
  | .putEnd => some { s with pc := .streamClose, items := s.items.put .streamEnd }
  | .streamClose => some { s with pc := .clientClose, stream := s.stream.close }
  | .clientClose => some { s with pc := .finished, client := s.client.close }
  | _ => none

/-- The `recv` call `i` as `r`. -/
def State.setRecv (s : State σ κ ε) (i : Nat) (r : Recv ε) : State σ κ ε :=
  { s with recvs := Function.update s.recvs i r }

/-- `AsyncStream.recv` with the entry its worker took. -/
def Entry.outcome : Entry ε → RecvTask ε
  | .chunk data => .returned (some data)
  | .streamEnd => .returned none
  | .exc e => .raised e

/-- What a finished `recv` call returned. -/
def RecvTask.value : RecvTask ε → List (Option (List UInt8))
  | .returned data => [data]
  | _ => []

/-- Cancelling the task of a `recv` call: a worker still in the pool's queue is cancelled with it. -/
def Recv.cancel (r : Recv ε) : Recv ε :=
  ⟨.cancelled, match r.worker with
    | .queued => .skipped
    | w => w⟩

def step (s : State σ κ ε) : Act σ κ ε → Option (State σ κ ε)
  | .call k => (s.pc.next k).map fun p => { s.note k with pc := p }
  | .owner => ownerStep s
  | .resume => s.handoff.resume.map fun h => { s with handoff := h }
  | .cancelStream => s.handoff.cancelTask.map fun h => { s with handoff := h }
  | .recv i =>
    match s.handoff.task, s.recvs i with
    | .returned _, ⟨.idle, _⟩ => some (s.setRecv i ⟨.waiting, .queued⟩)
    | _, _ => none
  | .start i =>
    match s.recvs i with
    | ⟨t, .queued⟩ => some (s.setRecv i ⟨t, .running⟩)
    | _ => none
  | .take i =>
    match s.recvs i, s.items.get with
    | ⟨t, .running⟩, some (x, q) => some ({ s with items := q }.setRecv i ⟨t, .holding x⟩)
    | _, _ => none
  | .deliver i =>
    match s.recvs i with
    | ⟨.waiting, .holding x⟩ =>
      some ({ s with delivered := s.delivered ++ x.outcome.value }.setRecv i ⟨x.outcome, .delivered⟩)
    | _ => none
  | .cancelRecv i =>
    match s.recvs i with
    | ⟨.waiting, w⟩ => some (s.setRecv i (Recv.cancel ⟨.waiting, w⟩))
    | _ => none
  | .aclose i =>
    match s.handoff.task, s.closers i with
    | .returned _, .idle => some { s with stop := true, closers := Function.update s.closers i .joining }
    | _, _ => none
  | .acloseJoin i =>
    match s.closers i, s.pc with
    | .joining, .finished => some { s with closers := Function.update s.closers i .returned }
    | _, _ => none
  | .acloseCancel i =>
    match s.closers i with
    | .joining => some { s with closers := Function.update s.closers i .cancelled }
    | _ => none

end Step

/-! ## What a step can do -/

/-- The calls one by one, each with the statement it leads to. -/
inductive Next {σ κ ε : Type*} : Pc σ ε → Call σ κ ε → Pc σ ε → Prop
  | connect {u : Unit} : Next .connect (.connect (.ok u)) .openStream
  | connectFail {e : ε} : Next .connect (.connect (.error e)) (.report e)
  | openStream {u : Unit} : Next .openStream (.openStream (.ok u)) .response
  | openFail {e : ε} : Next .openStream (.openStream (.error e)) (.giveUp e)
  | response {u : Unit} : Next .response (.response (.ok u)) .status
  | responseFail {e : ε} : Next .response (.response (.error e)) (.giveUp e)
  | status {v : σ} : Next .status (.status (.ok v)) (.headers v)
  | statusFail {e : ε} : Next .status (.status (.error e)) (.giveUp e)
  | headers {v : σ} {h : Headers} : Next (.headers v) (.headers (.ok h)) (.publish v h)
  | headersFail {v : σ} {e : ε} : Next (.headers v) (.headers (.error e)) (.giveUp e)
  | peerPubkey {key : κ} : Next .peerPubkey (.peerPubkey (.ok key)) .check
  | peerFail {e : ε} : Next .peerPubkey (.peerPubkey (.error e)) (.fail e)
  | recv {chunk : List UInt8} {ended : Bool} : chunk ≠ [] → Next .recv (.recv (.ok (chunk, ended))) (.put chunk ended)
  | recvEmpty {ended : Bool} : Next .recv (.recv (.ok ([], ended))) (afterRead ended)
  | recvFail {e : ε} : Next .recv (.recv (.error e)) (.fail e)
  | verify {u : Unit} : Next .verify (.verify (.ok u)) .putEnd
  | verifyFail {e : ε} : Next .verify (.verify (.error e)) (.fail e)

/-- The steps one by one, each with what it needs and the state it leaves. -/
inductive Step {σ κ ε : Type*} (s : State σ κ ε) : Act σ κ ε → State σ κ ε → Prop
  | call {k : Call σ κ ε} {p : Pc σ ε} : Next s.pc k p → Step s (.call k) { s.note k with pc := p }
  | giveUp {e : ε} : s.pc = .giveUp e → Step s .owner { s with pc := .report e, client := s.client.close }
  | report {e : ε} : s.pc = .report e → Step s .owner { s with
      pc := .finished
      handoff := { s.handoff with ready := (s.handoff.ready.setException e).getD s.handoff.ready } }
  | publish {v : σ} {h : Headers} : s.pc = .publish v h → s.handoff.ready = .pending →
      Step s .owner { s with pc := .peerPubkey, handoff := { s.handoff with ready := .result (v, h) } }
  | publishLate {v : σ} {h : Headers} : s.pc = .publish v h → s.handoff.ready ≠ .pending →
      Step s .owner { s with pc := .abandon }
  | abandon : s.pc = .abandon → Step s .owner { s with pc := .abandonClient, stream := s.stream.close }
  | abandonClient : s.pc = .abandonClient → Step s .owner { s with pc := .finished, client := s.client.close }
  | check : s.pc = .check → s.stop = false → Step s .owner { s with pc := .recv }
  | checkStop : s.pc = .check → s.stop = true → Step s .owner { s with pc := .streamClose }
  | put {chunk : List UInt8} {ended : Bool} : s.pc = .put chunk ended →
      Step s .owner { s with pc := afterRead ended, items := s.items.put (.chunk chunk) }
  | fail {e : ε} : s.pc = .fail e → Step s .owner { s with pc := .streamClose, items := s.items.put (.exc e) }
  | putEnd : s.pc = .putEnd → Step s .owner { s with pc := .streamClose, items := s.items.put .streamEnd }
  | streamClose : s.pc = .streamClose → Step s .owner { s with pc := .clientClose, stream := s.stream.close }
  | clientClose : s.pc = .clientClose → Step s .owner { s with pc := .finished, client := s.client.close }
  | resume {h : Handoff (σ × Headers) ε} : s.handoff.resume = some h → Step s .resume { s with handoff := h }
  | cancelStream {h : Handoff (σ × Headers) ε} : s.handoff.cancelTask = some h →
      Step s .cancelStream { s with handoff := h }
  | recv {i : Nat} {v : σ × Headers} : s.handoff.task = .returned v → (s.recvs i).task = .idle →
      Step s (.recv i) (s.setRecv i ⟨.waiting, .queued⟩)
  | start {i : Nat} : (s.recvs i).worker = .queued → Step s (.start i) (s.setRecv i ⟨(s.recvs i).task, .running⟩)
  | take {i : Nat} {x : Entry ε} {q : Fifo (Entry ε)} : (s.recvs i).worker = .running → s.items.get = some (x, q) →
      Step s (.take i) ({ s with items := q }.setRecv i ⟨(s.recvs i).task, .holding x⟩)
  | deliver {i : Nat} {x : Entry ε} : s.recvs i = ⟨.waiting, .holding x⟩ → Step s (.deliver i)
      ({ s with delivered := s.delivered ++ x.outcome.value }.setRecv i ⟨x.outcome, .delivered⟩)
  | cancelRecv {i : Nat} : (s.recvs i).task = .waiting → Step s (.cancelRecv i) (s.setRecv i (s.recvs i).cancel)
  | aclose {i : Nat} {v : σ × Headers} : s.handoff.task = .returned v → s.closers i = .idle →
      Step s (.aclose i) { s with stop := true, closers := Function.update s.closers i .joining }
  | acloseJoin {i : Nat} : s.closers i = .joining → s.pc = .finished →
      Step s (.acloseJoin i) { s with closers := Function.update s.closers i .returned }
  | acloseCancel {i : Nat} : s.closers i = .joining →
      Step s (.acloseCancel i) { s with closers := Function.update s.closers i .cancelled }

section Cases

variable {σ κ ε : Type*} {s s' : State σ κ ε}

theorem next_cases {p p' : Pc σ ε} {k : Call σ κ ε} (h : p.next k = some p') : Next p k p' := by
  unfold Pc.next at h
  split at h
  case h_13 chunk ended =>
    cases h
    split
    · rename_i hc; rw [hc]; exact .recvEmpty
    · rename_i hc; exact .recv hc
  all_goals cases h
  all_goals constructor

theorem ownerStep_cases (h : ownerStep s = some s') : Step s .owner s' := by
  unfold ownerStep at h
  split at h
  · rename_i hp; cases h; exact .giveUp hp
  · rename_i hp; cases h; exact .report hp
  · rename_i hp
    split at h
    · rename_i hr
      obtain ⟨h1, rfl⟩ := Ready.setResult_some hr
      cases h; exact .publish hp h1
    · rename_i hr
      cases h; exact .publishLate hp (Ready.setResult_none.1 hr)
  · rename_i hp; cases h; exact .abandon hp
  · rename_i hp; cases h; exact .abandonClient hp
  · rename_i hp
    split at h
    · rename_i hs; cases h; exact .checkStop hp hs
    · rename_i hs; cases h; exact .check hp (by simpa using hs)
  · rename_i hp; cases h; exact .put hp
  · rename_i hp; cases h; exact .fail hp
  · rename_i hp; cases h; exact .putEnd hp
  · rename_i hp; cases h; exact .streamClose hp
  · rename_i hp; cases h; exact .clientClose hp
  · cases h

theorem step_cases {a : Act σ κ ε} (h : step s a = some s') : Step s a s' := by
  cases a with
  | call k =>
    simp only [step] at h
    obtain ⟨p, hp, rfl⟩ := Option.map_eq_some_iff.1 h; exact .call (next_cases hp)
  | owner => exact ownerStep_cases h
  | resume =>
    simp only [step] at h
    obtain ⟨x, hx, rfl⟩ := Option.map_eq_some_iff.1 h; exact .resume hx
  | cancelStream =>
    simp only [step] at h
    obtain ⟨x, hx, rfl⟩ := Option.map_eq_some_iff.1 h; exact .cancelStream hx
  | recv i =>
    simp only [step] at h
    split at h
    · rename_i ht hi; cases h; exact .recv ht (by rw [hi])
    · cases h
  | start i =>
    simp only [step] at h
    split at h
    · rename_i t hi
      have := Step.start (s := s) (i := i) (by rw [hi])
      rw [hi] at this; cases h; exact this
    · cases h
  | take i =>
    simp only [step] at h
    split at h
    · rename_i t x q hi hg
      have := Step.take (s := s) (i := i) (by rw [hi]) hg
      rw [hi] at this; cases h; exact this
    · cases h
  | deliver i =>
    simp only [step] at h
    split at h
    · rename_i x hi; cases h; exact .deliver hi
    · cases h
  | cancelRecv i =>
    simp only [step] at h
    split at h
    · rename_i w hi
      have := Step.cancelRecv (s := s) (i := i) (by rw [hi])
      rw [hi] at this; cases h; exact this
    · cases h
  | aclose i =>
    simp only [step] at h
    split at h
    · rename_i ht hi; cases h; exact .aclose ht hi
    · cases h
  | acloseJoin i =>
    simp only [step] at h
    split at h
    · rename_i hi hp; cases h; exact .acloseJoin hi hp
    · cases h
  | acloseCancel i =>
    simp only [step] at h
    split at h
    · rename_i hi; cases h; exact .acloseCancel hi
    · cases h

end Cases

/-! ## A start-up -/

/-- The start-up of a stream, up to its stop check. -/
def startUp : List (Act Nat Nat Unit) :=
  [.call (.connect (.ok ())), .call (.openStream (.ok ())), .call (.response (.ok ())), .call (.status (.ok 0)),
    .call (.headers (.ok [])), .owner, .resume, .call (.peerPubkey (.ok 7))]

end Nwep.Runtime.Stream
