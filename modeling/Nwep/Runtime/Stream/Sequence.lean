/-
What the owner of a managed stream enqueues, over the whole run: the non-empty chunks it read, in
order, then at most one terminal. The end marker is that terminal only when the last read reported
the end, every chunk went before it and the trailer verified for the key the connection reported; a
call that raised is the terminal itself.

The invariant is on the labels of the run so far and the state, since an exception is kept nowhere
but in the owner's next statement and on the queue.
-/
import Nwep.Runtime.Stream.Invariant

namespace Nwep.Runtime.Stream

open Lib

variable {σ κ ε : Type*} {s s' : State σ κ ε} {tr : List (Act σ κ ε)} {a : Act σ κ ε}

/-! ## The exceptions of a run -/

/-- What a call of the owner's loop raised: the read of the peer's key, a read of the body, or the
verification. -/
def Act.failure : Act σ κ ε → Option ε
  | .call (.peerPubkey (.error e)) | .call (.recv (.error e)) | .call (.verify (.error e)) => some e
  | _ => none

/-- The exceptions the owner's loop met along the run, oldest first. -/
def failures (tr : List (Act σ κ ε)) : List ε := tr.filterMap Act.failure

theorem failures_snoc (tr : List (Act σ κ ε)) (a : Act σ κ ε) :
    failures (tr ++ [a]) = failures tr ++ a.failure.toList := by
  unfold failures
  rw [List.filterMap_append]
  cases h : a.failure <;> simp [h]

/-- The entries that end a body. -/
def terminals (l : List (Entry ε)) : List (Entry ε) := l.filter (!·.isChunk)

@[simp] theorem terminals_append (l m : List (Entry ε)) : terminals (l ++ m) = terminals l ++ terminals m :=
  List.filter_append ..

theorem terminals_of_chunks {l : List (Entry ε)} (h : ∀ x ∈ l, x.isChunk = true) : terminals l = [] := by
  unfold terminals
  rw [List.filter_eq_nil_iff]
  intro x hx
  rw [h x hx]; simp

theorem mem_terminals {l : List (Entry ε)} {x : Entry ε} : x ∈ terminals l ↔ x ∈ l ∧ x.isChunk = false := by
  unfold terminals
  rw [List.mem_filter, Bool.not_eq_true']

theorem map_chunks {l : List (Entry ε)} (h : ∀ x ∈ l, x.isChunk = true) : (chunks l).map Entry.chunk = l := by
  induction l with
  | nil => rfl
  | cons x l ih =>
    have hx := h x List.mem_cons_self
    cases x with
    | chunk data =>
      show Entry.chunk data :: (chunks l).map Entry.chunk = _
      rw [ih fun y hy => h y (List.mem_cons_of_mem _ hy)]
    | exc e | streamEnd => cases hx

/-! ## The sequence on the queue -/

/-- What the owner has put on the items queue by the end of the run `tr`. -/
structure Sequenced (tr : List (Act σ κ ε)) (s : State σ κ ε) : Prop where
  shape : s.items.history = (chunks s.items.history).map .chunk ++ terminals s.items.history
  chunks : chunks s.items.history <+: s.body
  terminal : (terminals s.items.history).length ≤ 1
  verified : .streamEnd ∈ s.items.history →
    (∃ rs chunk, s.reads = rs ++ [(chunk, true)]) ∧ Stream.chunks s.items.history = s.body ∧
      ∃ key, .call (.peerPubkey (.ok key)) ∈ tr ∧ s.verified = [key]
  failed : ∀ e ∈ failures tr, .streamEnd ∉ s.items.history ∧ (s.pc = .fail e ∨ .exc e ∈ s.items.history)
  raised : ∀ e, .exc e ∈ s.items.history → e ∈ failures tr

/-- Chunks and then at most one terminal. -/
theorem split_terminal {l : List (Entry ε)} (h : ∀ x ∈ l.dropLast, x.isChunk = true) :
    l = (chunks l).map .chunk ++ terminals l ∧ (terminals l).length ≤ 1 := by
  obtain rfl | ⟨l, x, rfl⟩ := List.eq_nil_or_concat l
  · exact ⟨rfl, Nat.zero_le _⟩
  · rw [List.concat_eq_append] at h ⊢
    rw [List.dropLast_concat] at h
    rw [chunks_append, terminals_append, terminals_of_chunks h, List.map_append, map_chunks h, List.append_assoc]
    cases x with
    | chunk data => exact ⟨rfl, Nat.zero_le _⟩
    | exc e | streamEnd => exact ⟨rfl, Nat.le_refl 1⟩

/-! ## The invariant -/

/-- The exception the owner is about to put. -/
def Pc.failing : Pc σ ε → List ε
  | .fail e => [e]
  | _ => []

theorem failing_of_over {p : Pc σ ε} (h : p.serving = false) : p.failing = [] := by
  cases p with
  | fail e => cases h
  | _ => rfl

/-- Past a read that reported the end. -/
def Pc.ended : Pc σ ε → Bool
  | .put _ ended => ended
  | .verify | .putEnd => true
  | _ => false

/-- Past the read of the peer's key. -/
def Pc.keyed : Pc σ ε → Bool
  | .check | .recv | .put _ _ | .verify | .putEnd => true
  | _ => false

/-- Past the verification. -/
def Pc.approved : Pc σ ε → Bool
  | .putEnd => true
  | _ => false

@[simp] theorem afterRead_failing (ended : Bool) : (afterRead ended : Pc σ ε).failing = [] := by cases ended <;> rfl
@[simp] theorem afterRead_ended (ended : Bool) : (afterRead ended : Pc σ ε).ended = ended := by cases ended <;> rfl
@[simp] theorem afterRead_keyed (ended : Bool) : (afterRead ended : Pc σ ε).keyed = true := by cases ended <;> rfl
@[simp] theorem afterRead_approved (ended : Bool) :
    (afterRead ended : Pc σ ε).approved = false := by cases ended <;> rfl

/-- The owner's statement agrees with what its calls told it. -/
structure Told (tr : List (Act σ κ ε)) (s : State σ κ ε) : Prop where
  failing : s.pc.starting = true ∨ s.pc.serving = true → failures tr = s.pc.failing
  settled : s.pc.starting = false → s.pc.serving = false →
    terminals s.items.history = (failures tr).map .exc ∨ failures tr = [] ∧ terminals s.items.history = [.streamEnd]
  ended : s.pc.ended = true ∨ .streamEnd ∈ s.items.history → ∃ rs chunk, s.reads = rs ++ [(chunk, true)]
  keyed : s.pc.keyed = true ∨ .streamEnd ∈ s.items.history →
    ∃ key, s.peer = some key ∧ .call (.peerPubkey (.ok key)) ∈ tr
  verified : s.pc.approved = true ∨ .streamEnd ∈ s.items.history → s.verified = s.peer.toList
  unverified : s.pc.starting = true ∨ s.pc.serving = true → s.pc.approved = false → s.verified = []

theorem init_told : Told [] (init : State σ κ ε) where
  failing _ := rfl
  settled h := by cases h
  ended h := by rcases h with h | h <;> cases h
  keyed h := by rcases h with h | h <;> cases h
  verified h := by rcases h with h | h <;> cases h
  unverified _ _ := rfl

/-- While the owner runs it has put no end marker. -/
theorem Fed.no_end (hf : Fed s) (h : s.pc.starting = true ∨ s.pc.serving = true) : .streamEnd ∉ s.items.history := by
  intro he
  have := hf.running h _ he
  cases this

theorem next_failing {pc p : Pc σ ε} {k : Call σ κ ε} (h : Next pc k p) :
    p.failing = (Act.call k).failure.toList ∧ pc.failing = [] := by
  cases h with
  | recvEmpty => exact ⟨afterRead_failing _, rfl⟩
  | _ => exact ⟨rfl, rfl⟩

theorem told_call {p : Pc σ ε} {k : Call σ κ ε} (hf : Fed s) (ht : Told tr s) (h : Next s.pc k p) :
    Told (tr ++ [.call k]) { s.note k with pc := p } := by
  obtain ⟨hstart, hserve, hrun, -⟩ := next_phase h
  obtain ⟨hfail, hpc⟩ := next_failing h
  have hend := hf.no_end hrun
  have hun := ht.unverified hrun
  constructor
  · intro _
    rw [failures_snoc, ht.failing hrun, hpc, hfail]; rfl
  · intro h1 h2
    simp only [hstart, hserve] at h1 h2
    rw [h1, h2] at hrun
    rcases hrun with h | h <;> cases h
  · simp only [note_items]
    rintro (he | he)
    · have hprev := ht.ended
      generalize s.pc = pc at h hprev
      cases h with
      | @recv chunk ended =>
        cases he
        exact ⟨s.reads, chunk, rfl⟩
      | @recvEmpty ended =>
        simp only [afterRead_ended] at he
        cases he
        exact ⟨s.reads, [], rfl⟩
      | verify => exact hprev (.inl rfl)
      | _ => cases he
    · exact absurd he hend
  · simp only [note_items]
    rintro (hk | hk)
    · have hprev := ht.keyed
      have grow : (∃ key, s.peer = some key ∧ Act.call (.peerPubkey (.ok key)) ∈ tr) →
          ∃ key, s.peer = some key ∧ Act.call (.peerPubkey (.ok key)) ∈ tr ++ [.call k] := by
        rintro ⟨key, h1, h2⟩
        exact ⟨key, h1, List.mem_append_left _ h2⟩
      generalize s.pc = pc at h hprev
      cases h with
      | @peerPubkey key => exact ⟨key, rfl, by simp⟩
      | recv | recvEmpty | verify => exact grow (hprev (.inl rfl))
      | _ => cases hk
    · exact absurd hk hend
  · simp only [note_items]
    rintro (hv | hv)
    · generalize s.pc = pc at h hun
      cases h with
      | verify =>
        show s.verified ++ s.peer.toList = s.peer.toList
        rw [hun rfl]; rfl
      | recvEmpty => simp only [afterRead_approved, Bool.false_eq_true] at hv
      | _ => cases hv
    · exact absurd hv hend
  · intro _ hv
    generalize s.pc = pc at h hun
    cases h with
    | verify => cases hv
    | _ => exact hun rfl

/-- The owner moves on, or another party does, with no call and nothing put but a chunk. -/
theorem Told.move (hf : Fed s) (ht : Told tr s) (ha : a.failure = none)
    (hend : .streamEnd ∈ s'.items.history → .streamEnd ∈ s.items.history)
    (hterm : terminals s'.items.history = terminals s.items.history)
    (hlog : s'.reads = s.reads ∧ s'.peer = s.peer ∧ s'.verified = s.verified)
    (hrun : s'.pc.starting = true ∨ s'.pc.serving = true →
      (s.pc.starting = true ∨ s.pc.serving = true) ∧ s'.pc.failing = s.pc.failing ∧ s'.pc.approved = s.pc.approved)
    (hover : s'.pc.starting = false → s'.pc.serving = false → s.pc.failing = [])
    (hended : s'.pc.ended = true → s.pc.ended = true) (hkeyed : s'.pc.keyed = true → s.pc.keyed = true)
    (happ : s'.pc.approved = true → s.pc.approved = true) : Told (tr ++ [a]) s' := by
  obtain ⟨hreads, hpeer, hver⟩ := hlog
  have hsame : failures (tr ++ [a]) = failures tr := by rw [failures_snoc, ha]; exact List.append_nil _
  constructor
  · intro h
    obtain ⟨h1, h2, -⟩ := hrun h
    rw [hsame, ht.failing h1, h2]
  · intro h1 h2
    rw [hsame, hterm]
    -- the stop check leaves the loop with chunks alone on the queue
    by_cases hs : s.pc.starting = true ∨ s.pc.serving = true
    · have hnone : terminals s.items.history = [] := terminals_of_chunks (hf.running hs)
      rw [ht.failing hs, hover h1 h2, hnone]
      exact .inl rfl
    · simp only [not_or, Bool.not_eq_true] at hs
      exact ht.settled hs.1 hs.2
  · intro h
    rw [hreads]
    exact ht.ended (h.imp hended hend)
  · intro h
    rw [hpeer]
    obtain ⟨key, h1, h2⟩ := ht.keyed (h.imp hkeyed hend)
    exact ⟨key, h1, List.mem_append_left _ h2⟩
  · intro h
    rw [hver, hpeer]
    exact ht.verified (h.imp happ hend)
  · intro h hv
    obtain ⟨h1, -, h3⟩ := hrun h
    rw [hver]
    exact ht.unverified h1 (h3 ▸ hv)

/-- A chunk is put. -/
theorem Told.put {chunk : List UInt8} {ended : Bool} (hf : Fed s) (ht : Told tr s) (hp : s.pc = .put chunk ended) :
    Told (tr ++ [.owner]) { s with pc := afterRead ended, items := s.items.put (.chunk chunk) } := by
  refine ht.move hf rfl (fun h => ?_) ?_ ⟨rfl, rfl, rfl⟩ ?_ ?_ ?_ ?_ ?_
  · rw [Fifo.put_history, List.mem_append] at h
    rcases h with h | h
    · exact h
    · cases List.mem_singleton.1 h
  · rw [Fifo.put_history, terminals_append]; exact List.append_nil _
  · intro _
    rw [hp]; exact ⟨.inr rfl, afterRead_failing _, afterRead_approved _⟩
  · intro _ h
    simp only [afterRead_serving, Bool.true_eq_false] at h
  · intro h
    rw [afterRead_ended] at h
    rw [hp]; exact h
  · intro _
    rw [hp]; rfl
  · intro h
    simp only [afterRead_approved, Bool.false_eq_true] at h

/-- The exception is put. -/
theorem Told.fail {e : ε} (hf : Fed s) (ht : Told tr s) (hp : s.pc = .fail e) :
    Told (tr ++ [.owner]) { s with pc := .streamClose, items := s.items.put (.exc e) } := by
  have hrun : s.pc.starting = true ∨ s.pc.serving = true := .inr (by rw [hp]; rfl)
  have hend : .streamEnd ∉ (s.items.put (.exc e)).history := by
    rw [Fifo.put_history, List.mem_append, List.mem_singleton]
    rintro (h | h)
    · exact hf.no_end hrun h
    · cases h
  have hfail := ht.failing hrun
  rw [hp] at hfail
  constructor
  · rintro (h | h) <;> cases h
  · intro _ _
    left
    rw [failures_snoc, hfail, Fifo.put_history, terminals_append, terminals_of_chunks (hf.running hrun)]; rfl
  · rintro (h | h)
    · cases h
    · exact absurd h hend
  · rintro (h | h)
    · cases h
    · exact absurd h hend
  · rintro (h | h)
    · cases h
    · exact absurd h hend
  · rintro (h | h) <;> cases h

/-- The end marker is put. -/
theorem Told.putEnd (hf : Fed s) (ht : Told tr s) (hp : s.pc = .putEnd) :
    Told (tr ++ [.owner]) { s with pc := .streamClose, items := s.items.put .streamEnd } := by
  have hrun : s.pc.starting = true ∨ s.pc.serving = true := .inr (by rw [hp]; rfl)
  have hfail := ht.failing hrun
  rw [hp] at hfail
  constructor
  · rintro (h | h) <;> cases h
  · intro _ _
    right
    rw [failures_snoc, hfail, Fifo.put_history, terminals_append, terminals_of_chunks (hf.running hrun)]
    exact ⟨rfl, rfl⟩
  · exact fun _ => ht.ended (.inl (by rw [hp]; rfl))
  · intro _
    obtain ⟨key, h1, h2⟩ := ht.keyed (.inl (by rw [hp]; rfl))
    exact ⟨key, h1, List.mem_append_left _ h2⟩
  · exact fun _ => ht.verified (.inl (by rw [hp]; rfl))
  · rintro (h | h) <;> cases h

theorem told_step (hf : Fed s) (ht : Told tr s) (h : Step s a s') : Told (tr ++ [a]) s' := by
  cases h with
  | call hn => exact told_call hf ht hn
  | giveUp hp | report hp | publish hp _ | publishLate hp _ | abandon hp | abandonClient hp | check hp _
  | checkStop hp _ | streamClose hp | clientClose hp =>
    exact ht.move hf rfl id rfl ⟨rfl, rfl, rfl⟩ (by simp [hp, Pc.starting, Pc.serving, Pc.failing, Pc.approved])
      (by simp [hp, Pc.failing]) (by simp [hp, Pc.ended]) (by simp [hp, Pc.keyed]) (by simp [hp, Pc.approved])
  | put hp => exact ht.put hf hp
  | fail hp => exact ht.fail hf hp
  | putEnd hp => exact ht.putEnd hf hp
  | take _ hg =>
    have hh := Fifo.get_history hg
    exact ht.move hf rfl (fun h => hh ▸ h) (congrArg _ hh) ⟨rfl, rfl, rfl⟩ (fun h => ⟨h, rfl, rfl⟩)
      (fun _ h => failing_of_over h) id id id
  | resume | cancelStream | recv | start | deliver | cancelRecv | aclose | acloseJoin | acloseCancel =>
    exact ht.move hf rfl id rfl ⟨rfl, rfl, rfl⟩ (fun h => ⟨h, rfl, rfl⟩)
      (fun _ h => failing_of_over h) id id id

/-! ## Every run -/

/-- While the owner runs, the only exception is the one it is about to put. -/
theorem Told.pc_of_failure {e : ε} (ht : Told tr s) (hr : s.pc.starting = true ∨ s.pc.serving = true)
    (he : e ∈ failures tr) : s.pc = .fail e := by
  rw [ht.failing hr] at he
  cases hp : s.pc with
  | fail d =>
    rw [hp] at he
    rw [List.mem_singleton.1 he]
  | _ => rw [hp] at he; cases he

/-- Either the owner still runs, or it put one exception or the end marker. -/
theorem Told.run_cases (ht : Told tr s) : (s.pc.starting = true ∨ s.pc.serving = true) ∨
    terminals s.items.history = (failures tr).map .exc ∨
      failures tr = [] ∧ terminals s.items.history = [.streamEnd] := by
  by_cases hr : s.pc.starting = true ∨ s.pc.serving = true
  · exact .inl hr
  · simp only [not_or, Bool.not_eq_true] at hr
    exact .inr (ht.settled hr.1 hr.2)

/-- An exception that was raised is put, or about to be. -/
theorem Told.failed {e : ε} (ht : Told tr s) (hf : Fed s) (he : e ∈ failures tr) :
    .streamEnd ∉ s.items.history ∧ (s.pc = .fail e ∨ .exc e ∈ s.items.history) := by
  rcases ht.run_cases with hr | hterm | ⟨hnone, -⟩
  · exact ⟨hf.no_end hr, .inl (ht.pc_of_failure hr he)⟩
  · refine ⟨fun hend => ?_, .inr ?_⟩
    · have hmem := mem_terminals.2 ⟨hend, rfl⟩
      rw [hterm] at hmem
      obtain ⟨d, -, hd⟩ := List.mem_map.1 hmem
      cases hd
    · have hmem : .exc e ∈ terminals s.items.history := by
        rw [hterm]; exact List.mem_map_of_mem he
      exact (mem_terminals.1 hmem).1
  · rw [hnone] at he; cases he

/-- An exception that was put had been raised. -/
theorem Told.raised {e : ε} (ht : Told tr s) (hf : Fed s) (he : .exc e ∈ s.items.history) : e ∈ failures tr := by
  have hmem := mem_terminals.2 ⟨he, rfl⟩
  rcases ht.run_cases with hr | hterm | ⟨-, hterm⟩
  · have := hf.running hr _ he
    cases this
  · rw [hterm] at hmem
    obtain ⟨d, hd, hx⟩ := List.mem_map.1 hmem
    cases hx; exact hd
  · rw [hterm] at hmem
    cases List.mem_singleton.1 hmem

/-- After any run the queue was fed with a prefix of the non-empty chunks read, in order, and at most
one terminal after them: the end marker only for a body that ended, was put whole and verified for the
connection's peer key, and otherwise the exception that was raised. -/
theorem stream_sequence {as : List (Act σ κ ε)} (h : runs step init as = some s) : Sequenced as s := by
  obtain ⟨hf, ht⟩ : Fed s ∧ Told as s :=
    runs_trace (J := fun tr s => Fed s ∧ Told tr s)
      (fun _ _ _ _ hj h => ⟨fed_step hj.1 (step_cases h), told_step hj.1 hj.2 (step_cases h)⟩) [] as
      ⟨init_fed, init_told⟩ h
  obtain ⟨hshape, hone⟩ := split_terminal hf.terminal
  constructor
  · exact hshape
  · exact ⟨_, hf.read⟩
  · exact hone
  · intro he
    have hread := hf.read
    rw [hf.over he rfl, List.append_nil] at hread
    obtain ⟨key, hkey, hcall⟩ := ht.keyed (.inr he)
    have hv := ht.verified (.inr he)
    rw [hkey] at hv
    exact ⟨ht.ended (.inr he), hread, key, hcall, hv⟩
  · exact fun e => ht.failed hf
  · exact fun e => ht.raised hf

/-- A last chunk that comes with the end flag, and a trailer that verifies. -/
def sequenceEnd : List (Act Nat Nat Unit) :=
  startUp ++ [.owner, .call (.recv (.ok ([], false))), .owner, .call (.recv (.ok ([1, 2], true))), .owner,
    .call (.verify (.ok ())), .owner]

theorem stream_sequence_end : ∃ s, runs step init sequenceEnd = some s ∧
    s.items.history = [.chunk [1, 2], .streamEnd] ∧ Sequenced sequenceEnd s :=
  ⟨_, rfl, rfl, stream_sequence (show runs step init sequenceEnd = some _ from rfl)⟩

end Nwep.Runtime.Stream
