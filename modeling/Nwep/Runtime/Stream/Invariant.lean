/-
What holds in every reachable state of the managed stream: the owner's phase and the published
result agree, a worker runs only for a call that awaits it or was cancelled, and the items queue is
fed with the non-empty chunks that were read, in order, and at most one entry of another kind, last.
-/
import Mathlib.Data.List.ReduceOption
import Nwep.Runtime.Stream

namespace Nwep.Runtime.Stream

open Lib

variable {σ κ ε : Type*} {s s' : State σ κ ε} {p pc : Pc σ ε} {k : Call σ κ ε}

/-! ## Phases of the owner thread -/

/-- Before the result is published. -/
def Pc.starting : Pc σ ε → Bool
  | .connect | .openStream | .response | .status | .headers _ | .giveUp _ | .report _ | .publish _ _ | .abandon
  | .abandonClient => true
  | _ => false

/-- Inside the `try` whose `finally` closes the handles, with nothing terminal put yet. -/
def Pc.serving : Pc σ ε → Bool
  | .peerPubkey | .check | .recv | .put _ _ | .verify | .fail _ | .putEnd => true
  | _ => false

/-- The chunk that was read and not yet put. -/
def Pc.pending : Pc σ ε → List (List UInt8)
  | .put chunk _ => [chunk]
  | _ => []

@[simp] theorem afterRead_starting (ended : Bool) : (afterRead ended : Pc σ ε).starting = false := by
  cases ended <;> rfl

@[simp] theorem afterRead_serving (ended : Bool) : (afterRead ended : Pc σ ε).serving = true := by
  cases ended <;> rfl

@[simp] theorem afterRead_pending (ended : Bool) : (afterRead ended : Pc σ ε).pending = [] := by
  cases ended <;> rfl

/-- What a library call does to the owner's phase: it stays starting, or stays serving. -/
theorem next_phase (h : Next pc k p) :
    p.starting = pc.starting ∧ p.serving = pc.serving ∧ (pc.starting = true ∨ pc.serving = true) ∧ pc.pending = [] := by
  cases h with
  | recvEmpty => exact ⟨afterRead_starting _, afterRead_serving _, .inr rfl, rfl⟩
  | peerPubkey | peerFail | recv | recvFail | verify | verifyFail => exact ⟨rfl, rfl, .inr rfl, rfl⟩
  | _ => exact ⟨rfl, rfl, .inl rfl, rfl⟩

/-- The chunks of the body read so far that are worth putting. -/
def State.body (s : State σ κ ε) : List (List UInt8) := (s.reads.map Prod.fst).filter (!·.isEmpty)

theorem body_flatten (s : State σ κ ε) : s.body.flatten = (s.reads.map Prod.fst).flatten :=
  List.flatten_filter_not_isEmpty

/-- A read adds its chunk to the body, and the owner is about to put it. -/
theorem next_body (h : Next s.pc k p) : (s.note k).body = s.body ++ p.pending := by
  unfold State.body
  generalize s.pc = pc at h
  cases h with
  | recv hc => simp [State.note, Pc.pending, hc]
  | recvEmpty => simp [State.note]
  | _ => exact (List.append_nil _).symm

/-! ### What a call sets -/

theorem note_frame (s : State σ κ ε) (k : Call σ κ ε) :
    (s.note k).items = s.items ∧ (s.note k).handoff = s.handoff ∧ (s.note k).recvs = s.recvs ∧
      (s.note k).delivered = s.delivered ∧ (s.note k).stop = s.stop ∧ (s.note k).closers = s.closers := by
  unfold State.note
  split <;> exact ⟨rfl, rfl, rfl, rfl, rfl, rfl⟩

@[simp] theorem note_items : (s.note k).items = s.items := (note_frame s k).1
@[simp] theorem note_handoff : (s.note k).handoff = s.handoff := (note_frame s k).2.1
@[simp] theorem note_recvs : (s.note k).recvs = s.recvs := (note_frame s k).2.2.1
@[simp] theorem note_delivered : (s.note k).delivered = s.delivered := (note_frame s k).2.2.2.1
@[simp] theorem note_stop : (s.note k).stop = s.stop := (note_frame s k).2.2.2.2.1
@[simp] theorem note_closers : (s.note k).closers = s.closers := (note_frame s k).2.2.2.2.2

/-! ## The hand-off and the calls -/

/-- Task and worker of a `recv` call agree. -/
def Recv.Ok (r : Recv ε) : Prop :=
  match r.worker with
  | .none => r.task = .idle
  | .queued => r.task = .waiting
  | .running | .holding _ => r.task = .waiting ∨ r.task = .cancelled
  | .delivered => ∃ x : Entry ε, r.task = x.outcome
  | .skipped => r.task = .cancelled

structure Inv (s : State σ κ ε) : Prop where
  handoff : s.handoff.Ok
  quiet : ¬ s.handoff.Published → ∀ i, (s.recvs i).task = .idle
  starting : s.pc.starting = true → ¬ s.handoff.Published
  serving : s.pc.serving = true → s.handoff.Published
  recvs : ∀ i, (s.recvs i).Ok

theorem init_inv : Inv (init : State σ κ ε) where
  handoff := Handoff.init_ok
  quiet _ _ := rfl
  starting _ := by rintro ⟨a, ha⟩; cases ha
  serving h := by cases h
  recvs _ := rfl

/-- The owner moves on within its phases, the hand-off and the calls as they were. -/
theorem Inv.move (hi : Inv s) (hho : s'.handoff = s.handoff) (hr : s'.recvs = s.recvs)
    (hstart : s'.pc.starting = true → s.pc.starting = true)
    (hserv : s'.pc.serving = true → s.pc.serving = true) : Inv s' where
  handoff := by rw [hho]; exact hi.handoff
  quiet := by rw [hho, hr]; exact hi.quiet
  starting h := by rw [hho]; exact hi.starting (hstart h)
  serving h := by rw [hho]; exact hi.serving (hserv h)
  recvs := by rw [hr]; exact hi.recvs

/-- The hand-off moves, the owner's statement and the calls stay. -/
theorem Inv.hand {h : Handoff (σ × Headers) ε} (hi : Inv s) (ho : h.Ok) (hpub : h.Published ↔ s.handoff.Published) :
    Inv { s with handoff := h } where
  handoff := ho
  quiet hn := hi.quiet (fun hp => hn (hpub.2 hp))
  starting h hp := hi.starting h (hpub.1 hp)
  serving h := hpub.2 (hi.serving h)
  recvs := hi.recvs

/-- One `recv` call moves, with the result published. -/
theorem Inv.setRecv (i : Nat) (r : Recv ε) (hi : Inv s) (hr : r.Ok) (hpub : s.handoff.Published)
    (hpc : s'.pc = s.pc) (hho : s'.handoff = s.handoff) (hrs : s'.recvs = Function.update s.recvs i r) : Inv s' where
  handoff := by rw [hho]; exact hi.handoff
  quiet h := absurd (by rwa [hho]) h
  starting h := absurd hpub (hi.starting (by rwa [hpc] at h))
  serving _ := by rw [hho]; exact hpub
  recvs j := by
    rw [hrs]
    by_cases hj : j = i
    · subst hj; rwa [Function.update_self]
    · rw [Function.update_of_ne hj]; exact hi.recvs j

/-- A call that began began after the result was published. -/
theorem Inv.published {i : Nat} (hi : Inv s) (h : (s.recvs i).task ≠ .idle) : s.handoff.Published := by
  by_contra hn
  exact h (hi.quiet hn i)

theorem Inv.worker_published {i : Nat} (hi : Inv s) (h : (s.recvs i).worker ≠ .none) : s.handoff.Published := by
  refine hi.published (i := i) fun ht => ?_
  have hok := hi.recvs i
  unfold Recv.Ok at hok
  split at hok
  · rename_i hw; exact h hw
  · rw [ht] at hok; cases hok
  · rw [ht] at hok; rcases hok with h | h <;> cases h
  · rw [ht] at hok; rcases hok with h | h <;> cases h
  · obtain ⟨x, hx⟩ := hok
    rw [ht] at hx
    cases x <;> cases hx
  · rw [ht] at hok; cases hok

theorem cancel_ok {r : Recv ε} (h : r.Ok) (ht : r.task = .waiting) : r.cancel.Ok := by
  unfold Recv.cancel Recv.Ok at *
  cases hw : r.worker with
  | none => rw [hw, ht] at h; cases h
  | delivered =>
    rw [hw, ht] at h
    obtain ⟨x, hx⟩ := h
    cases x <;> cases hx
  | queued | running | holding | skipped => simp

theorem inv_step {a : Act σ κ ε} (hi : Inv s) (h : Step s a s') : Inv s' := by
  cases h with
  | call hp =>
    obtain ⟨h1, h2, -, -⟩ := next_phase hp
    exact hi.move note_handoff note_recvs (fun h => h1 ▸ h) (fun h => h2 ▸ h)
  | giveUp hp | publishLate hp _ | abandon hp | abandonClient hp | check hp _ | checkStop hp _ | fail hp | putEnd hp
  | streamClose hp | clientClose hp =>
    exact hi.move rfl rfl (by simp [hp, Pc.starting]) (by simp [hp, Pc.serving])
  | put hp => exact hi.move rfl rfl (by simp) (by simp [hp, Pc.serving])
  | @report e hp =>
    have hn := hi.starting (by rw [hp]; rfl)
    exact {
      handoff := Handoff.report_ok hi.handoff e
      quiet := fun _ => hi.quiet hn
      starting := fun h => by cases h
      serving := fun h => by cases h
      recvs := hi.recvs }
  | publish hp hr =>
    exact {
      handoff := Handoff.settle_ok hi.handoff hr (by simp)
      quiet := fun h => absurd ⟨_, rfl⟩ h
      starting := fun h => by cases h
      serving := fun _ => ⟨_, rfl⟩
      recvs := hi.recvs }
  | resume hr => exact hi.hand (Handoff.resume_ok hr) (Handoff.resume_published hr)
  | cancelStream hc => exact hi.hand (Handoff.cancelTask_ok hc) (Handoff.cancelTask_published hc)
  | @recv i v ht _ => exact hi.setRecv i ⟨.waiting, .queued⟩ rfl ⟨_, hi.handoff.returned _ ht⟩ rfl rfl rfl
  | @start i hw =>
    have hok := hi.recvs i
    unfold Recv.Ok at hok
    rw [hw] at hok
    exact hi.setRecv i ⟨_, .running⟩ (Or.inl hok) (hi.published (i := i) (by rw [hok]; simp)) rfl rfl rfl
  | @take i x q hw hg =>
    have hok := hi.recvs i
    unfold Recv.Ok at hok
    rw [hw] at hok
    exact hi.setRecv i ⟨_, .holding x⟩ hok (hi.worker_published (i := i) (by rw [hw]; simp)) rfl rfl rfl
  | @deliver i x hr =>
    exact hi.setRecv i ⟨_, .delivered⟩ (Exists.intro x rfl) (hi.published (i := i) (by rw [hr]; simp)) rfl rfl rfl
  | @cancelRecv i ht =>
    exact hi.setRecv i _ (cancel_ok (hi.recvs i) ht) (hi.published (i := i) (by rw [ht]; simp)) rfl rfl rfl
  | aclose | acloseJoin | acloseCancel => exact hi.move rfl rfl id id

theorem runs_inv {as : List (Act σ κ ε)} (h : runs step init as = some s) : Inv s :=
  Lib.runs_inv (fun _ _ _ hi h => inv_step hi (step_cases h)) as init_inv h

/-! ## The items queue -/

def Entry.isChunk : Entry ε → Bool
  | .chunk _ => true
  | _ => false

@[simp] theorem chunks_append (l m : List (Entry ε)) : chunks (l ++ m) = chunks l ++ chunks m := List.filterMap_append

/-- What the owner has put so far. -/
structure Fed (s : State σ κ ε) : Prop where
  read : chunks s.items.history ++ s.pc.pending = s.body
  running : s.pc.starting = true ∨ s.pc.serving = true → ∀ x ∈ s.items.history, x.isChunk = true
  terminal : ∀ x ∈ s.items.history.dropLast, x.isChunk = true

theorem init_fed : Fed (init : State σ κ ε) :=
  ⟨rfl, (fun _ x hx => by cases hx), (fun x hx => by cases hx)⟩

/-- The owner moves on with nothing read and nothing put. -/
theorem Fed.move (hf : Fed s) (hh : s'.items.history = s.items.history) (hp : s'.pc.pending = s.pc.pending)
    (hb : s'.body = s.body)
    (hr : s'.pc.starting = true ∨ s'.pc.serving = true → s.pc.starting = true ∨ s.pc.serving = true) : Fed s' where
  read := by rw [hh, hp, hb]; exact hf.read
  running h := by rw [hh]; exact hf.running (hr h)
  terminal := by rw [hh]; exact hf.terminal

/-- The owner puts an entry of another kind than a chunk, and its loop is over. -/
theorem Fed.close {x : Entry ε} (hf : Fed s) (hs : s.pc.serving = true) (hp : s.pc.pending = [])
    (hx : chunks [x] = []) :
    Fed { s with pc := .streamClose, items := s.items.put x } where
  read := by
    have := hf.read
    rw [hp] at this
    simp only [Fifo.put_history, chunks_append, hx, Pc.pending, List.append_nil] at this ⊢
    exact this
  running h := by rcases h with h | h <;> cases h
  terminal y hy := by
    rw [Fifo.put_history, List.dropLast_concat] at hy
    exact hf.running (.inr hs) y hy

theorem fed_step {a : Act σ κ ε} (hf : Fed s) (h : Step s a s') : Fed s' := by
  cases h with
  | @call k p hp =>
    obtain ⟨h1, h2, h3, h4⟩ := next_phase hp
    have hread := hf.read
    rw [h4, List.append_nil] at hread
    exact {
      read := by
        show chunks (s.note k).items.history ++ p.pending = (s.note k).body
        rw [note_items, next_body hp, hread]
      running := fun _ => by simp only [note_items]; exact hf.running h3
      terminal := by simp only [note_items]; exact hf.terminal }
  | @put chunk ended hp =>
    have hread := hf.read
    have hall := hf.running (.inr (by rw [hp]; rfl))
    rw [hp] at hread
    have hall' : ∀ x ∈ (s.items.put (.chunk chunk)).history, x.isChunk = true := by
      intro x hx
      rw [Fifo.put_history, List.mem_append, List.mem_singleton] at hx
      rcases hx with hx | rfl
      · exact hall x hx
      · rfl
    exact {
      read := by
        simp only [Fifo.put_history, chunks_append, afterRead_pending, List.append_nil]
        exact hread
      running := fun _ => hall'
      terminal := fun x hx => hall' x ((List.dropLast_sublist _).subset hx) }
  | fail hp => exact hf.close (by rw [hp]; rfl) (by rw [hp]; rfl) rfl
  | putEnd hp => exact hf.close (by rw [hp]; rfl) (by rw [hp]; rfl) rfl
  | giveUp hp | report hp | publish hp _ | publishLate hp _ | abandon hp | abandonClient hp | check hp _
  | checkStop hp _ | streamClose hp | clientClose hp =>
    exact hf.move rfl (by rw [hp]; rfl) rfl (by simp [hp, Pc.starting, Pc.serving])
  | take _ hg => exact hf.move (Fifo.get_history hg) rfl rfl id
  | resume | cancelStream | recv | start | deliver | cancelRecv | aclose | acloseJoin | acloseCancel =>
    exact hf.move rfl rfl rfl id

/-- Once an entry of another kind was taken, nothing waits. -/
theorem Fed.drained {x : Entry ε} (hf : Fed s) (hx : x ∈ s.items.taken) (hc : x.isChunk = false) :
    s.items.waiting = [] := by
  by_contra hw
  have hmem : x ∈ s.items.history.dropLast := by
    unfold Fifo.history
    rw [List.dropLast_append_of_ne_nil hw]; exact List.mem_append_left _ hx
  rw [hf.terminal x hmem] at hc; cases hc

/-- Once an entry of another kind was put, the owner is out of its loop. -/
theorem Fed.over {x : Entry ε} (hf : Fed s) (hx : x ∈ s.items.history) (hc : x.isChunk = false) :
    s.pc.pending = [] := by
  cases hp : s.pc with
  | put c e => rw [hf.running (.inr (by rw [hp]; rfl)) x hx] at hc; cases hc
  | _ => rfl

end Nwep.Runtime.Stream
