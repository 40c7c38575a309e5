/-
Delivery of a streamed body to a consumer that calls `recv` one call after another. A call that is
cancelled while its worker runs leaves the worker behind: the chunk that worker takes, or already
took, reaches nobody, and a later call still returns `None` at the end.

`Kept` excludes these two cases step by step, and on the runs that meet it the body is whole.
-/
import Nwep.Runtime.Stream.Invariant

namespace Nwep.Runtime.Stream

open Lib

variable {σ κ ε : Type*} {s s' : State σ κ ε}

/-- Once a `recv` returned `None`, the chunks the calls returned are the bytes the owner read. -/
def WholeBody (s : State σ κ ε) : Prop :=
  none ∈ s.delivered → s.delivered.reduceOption.flatten = (s.reads.map Prod.fst).flatten

/-- The consumer makes its calls one after another. -/
def InTurn (s : State σ κ ε) : Act σ κ ε → Prop
  | .recv _ => ∀ j, (s.recvs j).task ≠ .waiting
  | _ => True

/-- No chunk goes to a cancelled call: the worker of such a call takes none, and no call is cancelled
whose worker took one. -/
def Kept (s : State σ κ ε) : Act σ κ ε → Prop
  | .take i => (s.recvs i).task = .cancelled → ∀ data q, s.items.get ≠ some (.chunk data, q)
  | .cancelRecv i => ∀ data, (s.recvs i).worker ≠ .holding (.chunk data)
  | _ => True

/-- The worker of the call `i` took the entry `x`, and the call did not return it yet. -/
def Holds (s : State σ κ ε) (i : Nat) (x : Entry ε) : Prop := (s.recvs i).worker = .holding x

/-- The chunks taken from the queue went to the consumer, the last of them maybe on its way. -/
structure Routed (s : State σ κ ε) : Prop where
  turn : ∀ i j, (s.recvs i).task = .waiting → (s.recvs j).task = .waiting → i = j
  kept : ∀ i data, Holds s i (.chunk data) → (s.recvs i).task = .waiting
  taken : (∃ i data, Holds s i (.chunk data) ∧ chunks s.items.taken = s.delivered.reduceOption ++ [data]) ∨
    ((∀ i data, ¬ Holds s i (.chunk data)) ∧ chunks s.items.taken = s.delivered.reduceOption)
  atEnd : ∀ i, Holds s i .streamEnd → .streamEnd ∈ s.items.taken
  ended : none ∈ s.delivered → .streamEnd ∈ s.items.taken ∧ ∀ i data, ¬ Holds s i (.chunk data)

theorem init_routed : Routed (init : State σ κ ε) where
  turn i j h := by cases h
  kept i data h := by cases h
  taken := .inr ⟨(fun i data h => by cases h), rfl⟩
  atEnd i h := by cases h
  ended h := by cases h

/-- The calls, what was taken and what was returned stay. -/
theorem Routed.frame (hr : Routed s) (h1 : s'.recvs = s.recvs) (h2 : s'.items.taken = s.items.taken)
    (h3 : s'.delivered = s.delivered) : Routed s' where
  turn := by rw [h1]; exact hr.turn
  kept := by unfold Holds; rw [h1]; exact hr.kept
  taken := by unfold Holds; rw [h1, h2, h3]; exact hr.taken
  atEnd := by unfold Holds; rw [h1, h2]; exact hr.atEnd
  ended := by unfold Holds; rw [h1, h2, h3]; exact hr.ended

theorem setRecv_self (s : State σ κ ε) (i : Nat) (r : Recv ε) : (s.setRecv i r).recvs i = r := Function.update_self ..

theorem setRecv_other (s : State σ κ ε) {i j : Nat} (r : Recv ε) (h : j ≠ i) : (s.setRecv i r).recvs j = s.recvs j :=
  Function.update_of_ne h ..

theorem holds_setRecv {i j : Nat} {r : Recv ε} {x : Entry ε} :
    Holds (s.setRecv i r) j x ↔ (j = i ∧ r.worker = .holding x) ∨ (j ≠ i ∧ Holds s j x) := by
  unfold Holds
  by_cases hj : j = i
  · subst hj; rw [setRecv_self]; simp
  · rw [setRecv_other s r hj]; simp [hj]

/-- The call `i` moves, and no worker takes or hands over an entry. -/
theorem Routed.setRecv {i : Nat} {r : Recv ε} (hr : Routed s) (hw : ∀ x, r.worker = .holding x ↔ Holds s i x)
    (hk : ∀ data, Holds s i (.chunk data) → r.task = .waiting)
    (ht : r.task = .waiting → ∀ j, j ≠ i → (s.recvs j).task ≠ .waiting) : Routed (s.setRecv i r) := by
  have hh : Holds (s.setRecv i r) = Holds s := by
    funext j x
    rw [holds_setRecv, hw]
    by_cases hj : j = i <;> simp [hj]
  constructor
  · intro j k hj hk'
    by_contra hne
    by_cases hji : j = i
    · subst hji
      rw [setRecv_self] at hj
      rw [setRecv_other s r (Ne.symm hne)] at hk'
      exact ht hj k (Ne.symm hne) hk'
    · rw [setRecv_other s r hji] at hj
      by_cases hki : k = i
      · subst hki
        rw [setRecv_self] at hk'
        exact ht hk' j hji hj
      · rw [setRecv_other s r hki] at hk'
        exact hne (hr.turn j k hj hk')
  · rw [hh]
    intro j data hj
    by_cases hji : j = i
    · subst hji; rw [setRecv_self]; exact hk data hj
    · rw [setRecv_other s r hji]; exact hr.kept j data hj
  · rw [hh]; exact hr.taken
  · rw [hh]; exact hr.atEnd
  · rw [hh]; exact hr.ended

/-- Nothing is taken after the end marker. -/
theorem Routed.not_ended {x : Entry ε} {q : Fifo (Entry ε)} (hr : Routed s) (hf : Fed s)
    (hg : s.items.get = some (x, q)) :
    none ∉ s.delivered := by
  intro hn
  have hw := hf.drained (hr.ended hn).1 rfl
  rw [(Fifo.get_some hg).1] at hw; cases hw

/-- The worker of the call `i` takes the entry `x`. -/
theorem Routed.take {i : Nat} {x : Entry ε} {q : Fifo (Entry ε)} (hi : Inv s) (hf : Fed s) (hr : Routed s)
    (hw : (s.recvs i).worker = .running) (hg : s.items.get = some (x, q))
    (hc : (s.recvs i).task = .cancelled → ∀ data q, s.items.get ≠ some (.chunk data, q)) :
    Routed ({ s with items := q }.setRecv i ⟨(s.recvs i).task, .holding x⟩) := by
  obtain ⟨-, htk⟩ := Fifo.get_some hg
  have hend := hr.not_ended hf hg
  set s' := State.setRecv { s with items := q } i ⟨(s.recvs i).task, .holding x⟩ with hs'
  have hself : s'.recvs i = ⟨(s.recvs i).task, .holding x⟩ := setRecv_self ..
  have hother {j : Nat} (hj : j ≠ i) : s'.recvs j = s.recvs j := setRecv_other _ _ hj
  have htask (j : Nat) : (s'.recvs j).task = (s.recvs j).task := by
    by_cases hj : j = i
    · subst hj; rw [hself]
    · rw [hother hj]
  have hwait {data : List UInt8} (hx : x = .chunk data) : (s.recvs i).task = .waiting := by
    have hok := hi.recvs i
    unfold Recv.Ok at hok
    rw [hw] at hok
    exact hok.resolve_right fun h => hc h data q (hx ▸ hg)
  have hholds {j : Nat} {y : Entry ε} (h : Holds s' j y) : (j = i ∧ x = y) ∨ (j ≠ i ∧ Holds s j y) :=
    (holds_setRecv.1 h).imp_left (And.imp_right Worker.holding.inj)
  constructor
  · intro j k hj hk
    rw [htask] at hj hk; exact hr.turn j k hj hk
  · intro j data h
    rw [htask]
    rcases hholds h with ⟨rfl, hx⟩ | ⟨-, h⟩
    · exact hwait hx
    · exact hr.kept j data h
  · show (∃ j data, Holds s' j (.chunk data) ∧ chunks q.taken = s.delivered.reduceOption ++ [data]) ∨
      ((∀ j data, ¬ Holds s' j (.chunk data)) ∧ chunks q.taken = s.delivered.reduceOption)
    rw [htk, chunks_append]
    cases x with
    | chunk data =>
      -- the worker's call is the one that waits, so no other call holds a chunk
      refine .inl ⟨i, data, by unfold Holds; rw [hself], ?_⟩
      rcases hr.taken with ⟨j, d, hj, -⟩ | ⟨-, h⟩
      · have := hr.turn j i (hr.kept j d hj) (hwait rfl)
        subst this
        unfold Holds at hj
        rw [hw] at hj; cases hj
      · rw [h]; rfl
    | exc e | streamEnd =>
      refine hr.taken.imp (fun ⟨j, d, hj, h⟩ => ⟨j, d, ?_, by rw [h]; exact List.append_nil _⟩)
        (fun ⟨hn, h⟩ => ⟨fun j d hj => ?_, by rw [h]; exact List.append_nil _⟩)
      · unfold Holds at *
        rwa [hother (by rintro rfl; rw [hw] at hj; cases hj)]
      · rcases hholds hj with ⟨-, h⟩ | ⟨-, h⟩
        · cases h
        · exact hn j d h
  · intro j h
    show .streamEnd ∈ q.taken
    rw [htk]
    rcases hholds h with ⟨-, rfl⟩ | ⟨-, h⟩
    · exact List.mem_append_right _ (List.mem_singleton.2 rfl)
    · exact List.mem_append_left _ (hr.atEnd j h)
  · exact fun h => absurd h hend

/-- The call `i` returns the entry `x`, or raises it. -/
theorem Routed.deliver {i : Nat} {x : Entry ε} (hr : Routed s) (hx : s.recvs i = ⟨.waiting, .holding x⟩) :
    Routed ({ s with delivered := s.delivered ++ x.outcome.value }.setRecv i ⟨x.outcome, .delivered⟩) := by
  set s' := State.setRecv { s with delivered := s.delivered ++ x.outcome.value } i ⟨x.outcome, .delivered⟩ with hs'
  have hself : s'.recvs i = ⟨x.outcome, .delivered⟩ := setRecv_self ..
  have hother {j : Nat} (hj : j ≠ i) : s'.recvs j = s.recvs j := setRecv_other _ _ hj
  have hidle : ∀ j, (s'.recvs j).task ≠ .waiting := by
    intro j hj
    by_cases hji : j = i
    · subst hji
      rw [hself] at hj
      cases x <;> cases hj
    · rw [hother hji] at hj
      exact hji (hr.turn j i hj (by rw [hx]))
  -- nobody else holds a chunk: it would wait as well
  have hno : ∀ j data, ¬ Holds s' j (.chunk data) := by
    intro j data hj
    rcases holds_setRecv.1 hj with ⟨-, h⟩ | ⟨hji, h⟩
    · cases h
    · exact hji (hr.turn j i (hr.kept j data h) (by rw [hx]))
  have hend {j : Nat} (h : Holds s' j .streamEnd) : Holds s j .streamEnd := by
    rcases holds_setRecv.1 h with ⟨-, h⟩ | ⟨-, h⟩
    · cases h
    · exact h
  constructor
  · exact fun j k hj _ => absurd hj (hidle j)
  · exact fun j data hj => absurd hj (hno j data)
  · refine .inr ⟨hno, ?_⟩
    show chunks s.items.taken = (s.delivered ++ x.outcome.value).reduceOption
    rw [List.reduceOption_append]
    rcases hr.taken with ⟨j, d, hj, h⟩ | ⟨hn, h⟩
    · have := hr.turn j i (hr.kept j d hj) (by rw [hx])
      subst this
      unfold Holds at hj
      rw [hx] at hj
      cases hj
      rw [h]; rfl
    · cases x with
      | chunk d => exact absurd (by unfold Holds; rw [hx]) (hn i d)
      | exc e | streamEnd => rw [h]; exact (List.append_nil _).symm
  · exact fun j h => hr.atEnd j (hend h)
  · intro h
    refine ⟨?_, hno⟩
    show .streamEnd ∈ s.items.taken
    rcases List.mem_append.1 h with h | h
    · exact (hr.ended h).1
    · cases x with
      | streamEnd => exact hr.atEnd i (by unfold Holds; rw [hx])
      | chunk d | exc e => simp [Entry.outcome, RecvTask.value] at h

theorem routed_step {a : Act σ κ ε} (hi : Inv s) (hf : Fed s) (hr : Routed s) (ht : InTurn s a) (hk : Kept s a)
    (h : Step s a s') : Routed s' := by
  cases h with
  | call => exact hr.frame note_recvs (by simp only [note_items]) note_delivered
  | giveUp | report | publish | publishLate | abandon | abandonClient | check | checkStop | put | fail | putEnd
  | streamClose | clientClose | resume | cancelStream | aclose | acloseJoin | acloseCancel =>
    exact hr.frame rfl rfl rfl
  | @recv i v _ hidle =>
    have hok := hi.recvs i
    unfold Recv.Ok at hok
    refine hr.setRecv (fun x => ⟨(fun h => by cases h), fun h => ?_⟩) (fun data h => rfl) (fun _ j _ => ht j)
    unfold Holds at h
    rw [h, hidle] at hok
    rcases hok with h | h <;> cases h
  | @start i hw =>
    have hok := hi.recvs i
    unfold Recv.Ok at hok
    rw [hw] at hok
    refine hr.setRecv (fun x => ⟨(fun h => by cases h), fun h => ?_⟩) (fun data h => hok)
      (fun h j hj hjw => hj (hr.turn j i hjw h))
    unfold Holds at h
    rw [hw] at h; cases h
  | take hw hg => exact hr.take hi hf hw hg hk
  | deliver hx => exact hr.deliver hx
  | @cancelRecv i htask =>
    refine hr.setRecv (fun x => ?_) (fun data h => absurd h (hk data)) (fun h => by cases h)
    unfold Recv.cancel Holds
    cases (s.recvs i).worker <;> simp

/-- Once the end marker was taken with every chunk routed, the body is whole. -/
theorem Routed.whole (hf : Fed s) (hr : Routed s) : WholeBody s := by
  intro hn
  obtain ⟨hend, hno⟩ := hr.ended hn
  have hw := hf.drained hend rfl
  have hall : s.items.history = s.items.taken := by
    unfold Fifo.history
    rw [hw, List.append_nil]
  have hread := hf.read
  rw [hall, hf.over (by rw [hall]; exact hend) rfl, List.append_nil] at hread
  rw [← body_flatten, ← hread]
  rcases hr.taken with ⟨i, data, hh, -⟩ | ⟨-, h⟩
  · exact absurd hh (hno i data)
  · rw [h]

/-- A consumer that makes its calls in turn and loses no chunk to a cancelled call gets, by the time
a call returns `None`, exactly the bytes the owner read. -/
theorem whole_body {as : List (Act σ κ ε)} (h : runs step init as = some s)
    (hm : Meets step (fun s a => InTurn s a ∧ Kept s a) init as) : WholeBody s := by
  have hk : Inv s ∧ Fed s ∧ Routed s :=
    meets_inv (I := fun s => Inv s ∧ Fed s ∧ Routed s)
      (fun s a s' hi hc h => ⟨inv_step hi.1 (step_cases h), fed_step hi.2.1 (step_cases h),
        routed_step hi.1 hi.2.1 hi.2.2 hc.1 hc.2 (step_cases h)⟩)
      as ⟨init_inv, init_fed, init_routed⟩ hm h
  exact hk.2.2.whole hk.2.1

/-- A call cancelled while its worker is still queued, and two calls that get a chunk and the end. -/
def readAll : List (Act Nat Nat Unit) :=
  startUp ++ [.recv 0, .cancelRecv 0, .owner, .call (.recv (.ok ([1, 2], true))), .owner, .call (.verify (.ok ())),
    .owner, .recv 1, .start 1, .take 1, .deliver 1, .recv 2, .start 2, .take 2, .deliver 2]

theorem whole_body_read : ∃ s, runs step init readAll = some s ∧ s.delivered = [some [1, 2], none] ∧ WholeBody s := by
  refine ⟨_, rfl, rfl, whole_body (show runs step init readAll = some _ from rfl) ?_⟩
  have t {s : State Nat Nat Unit} {a : Act Nat Nat Unit} (h : InTurn s a) (k : Kept s a) :
      InTurn s a ∧ Kept s a := ⟨h, k⟩
  refine ⟨t trivial trivial, t trivial trivial, t trivial trivial, t trivial trivial, t trivial trivial,
    t trivial trivial, t trivial trivial, t trivial trivial, t ?_ trivial, t trivial ?_, t trivial trivial,
    t trivial trivial, t trivial trivial, t trivial trivial, t trivial trivial, t ?_ trivial, t trivial trivial,
    t trivial ?_, t trivial trivial, t ?_ trivial, t trivial trivial, t trivial ?_, t trivial trivial, trivial⟩
  · intro j h; cases h
  · intro data h; cases h
  · rintro (_ | j) h <;> cases h
  · intro h; cases h
  · rintro (_ | _ | j) h <;> cases h
  · intro h; cases h

/-- A call cancelled while its worker waits in `items.get`: the worker takes the chunk, and the next
call returns `None`. -/
def readCancelled : List (Act Nat Nat Unit) :=
  startUp ++ [.recv 0, .start 0, .cancelRecv 0, .owner, .call (.recv (.ok ([1, 2], true))), .owner, .take 0,
    .call (.verify (.ok ())), .owner, .recv 1, .start 1, .take 1, .deliver 1]

theorem chunk_lost : ∃ s, runs step init readCancelled = some s ∧ Meets step InTurn init readCancelled ∧
    ¬ WholeBody s := by
  refine ⟨_, rfl, ⟨trivial, trivial, trivial, trivial, trivial, trivial, trivial, trivial, ?_, trivial, trivial, trivial,
    trivial, trivial, trivial, trivial, trivial, ?_, trivial, trivial, trivial, trivial⟩, fun h => ?_⟩
  · intro j h; cases h
  · rintro (_ | j) h <;> cases h
  · have := h (List.mem_singleton.2 rfl)
    cases this

end Nwep.Runtime.Stream
