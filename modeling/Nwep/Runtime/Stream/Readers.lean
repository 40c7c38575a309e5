/-
Readers of a managed stream that nobody will serve. The owner puts a terminal when the body ends or a
call raises, and one entry serves one worker: a worker that finds the queue empty after the owner
ended waits for ever, and its call with it. The stop flag ends the loop with no terminal at all, and
a call made after the terminal was taken finds nothing either.

`Supplied` excludes these cases step by step: the workers that are about to take are at most the
entries left once the owner is out of its loop. Where a step breaks it, some continuation strands a
call.
-/
import Mathlib.Data.Set.Card
import Nwep.Runtime.Stream.Invariant

namespace Nwep.Runtime.Stream

open Lib

variable {σ κ ε : Type*} {s s' : State σ κ ε} {a : Act σ κ ε} {i j : Nat} {n : Nat}

/-- The worker of the call took no entry yet, and still can. -/
def Recv.hungry (r : Recv ε) : Bool :=
  match r.worker with
  | .queued | .running => true
  | _ => false

/-- The calls whose workers are about to take an entry, those of cancelled calls included. -/
def State.hungry (s : State σ κ ε) : Set Nat := {i | (s.recvs i).hungry = true}

/-- The call awaits an entry. -/
def Awaits (s : State σ κ ε) (i : Nat) : Prop := (s.recvs i).task = .waiting ∧ i ∈ s.hungry

/-- The owner ended, the queue is empty, and some `recv` call still waits on it. -/
def Stranded (s : State σ κ ε) : Prop := s.pc = .finished ∧ s.items.waiting = [] ∧ ∃ i, Awaits s i

/-- Out of the loop, with the last entry put. -/
def Pc.over : Pc σ ε → Bool
  | .streamClose | .clientClose | .finished => true
  | _ => false

/-- If a call waits, then `n` entries are enough for every worker. -/
def Covered (s : State σ κ ε) (n : Nat) : Prop := (∃ i, Awaits s i) → s.hungry.encard ≤ n

/-- The owner leaves its loop with an entry for each worker if a call waits, the terminal it puts
counted, and after that a call is made only when an entry is left for it. -/
def Supplied (s : State σ κ ε) : Act σ κ ε → Prop
  | .owner => match s.pc with
    | .check => s.stop = true → Covered s s.items.waiting.length
    | .fail _ | .putEnd => Covered s (s.items.waiting.length + 1)
    | _ => True
  | .recv _ => s.pc.over = true → s.hungry.encard + 1 ≤ s.items.waiting.length
  | _ => True

/-! ## Who waits -/

theorem over_not_running {p : Pc σ ε} (h : p.over = true) : p.starting = false ∧ p.serving = false := by
  cases p <;> first
    | (cases h; done)
    | exact ⟨rfl, rfl⟩

theorem mem_hungry : i ∈ s.hungry ↔ (s.recvs i).hungry = true := Iff.rfl

theorem hungry_frame (h : s'.recvs = s.recvs) : s'.hungry = s.hungry ∧ ∀ i, Awaits s' i ↔ Awaits s i := by
  unfold Awaits State.hungry
  rw [h]; exact ⟨rfl, fun _ => Iff.rfl⟩

theorem Covered.mono (hc : Covered s n) (hw : ∀ i, Awaits s' i → Awaits s i) (hh : s'.hungry ⊆ s.hungry) :
    Covered s' n := by
  rintro ⟨i, hi⟩
  exact (Set.encard_le_encard hh).trans (hc ⟨i, hw i hi⟩)

theorem Covered.frame (hc : Covered s n) (h : s'.recvs = s.recvs) : Covered s' n := by
  obtain ⟨h1, h2⟩ := hungry_frame h
  exact hc.mono (fun i => (h2 i).1) h1.subset

/-- The call `i` moves and its worker takes nothing. -/
theorem Covered.setRecv {r : Recv ε} (hc : Covered s n) (hs : s'.recvs = Function.update s.recvs i r)
    (hh : r.hungry = true → (s.recvs i).hungry = true)
    (ht : r.hungry = true → r.task = .waiting → (s.recvs i).task = .waiting) : Covered s' n := by
  have hsub : ∀ j, j ∈ s'.hungry → j ∈ s.hungry := by
    intro j hj
    rw [mem_hungry] at hj ⊢
    rw [hs] at hj
    by_cases hji : j = i
    · subst hji
      rw [Function.update_self] at hj; exact hh hj
    · rwa [Function.update_of_ne hji] at hj
  refine hc.mono (fun j hj => ⟨?_, hsub j hj.2⟩) hsub
  obtain ⟨hw, hm⟩ := hj
  rw [mem_hungry, hs] at hm
  rw [hs] at hw
  by_cases hji : j = i
  · subst hji
    rw [Function.update_self] at hw hm; exact ht hm hw
  · rwa [Function.update_of_ne hji] at hw

/-- The worker of the call `i` takes an entry, and is not hungry any more. -/
theorem hungry_take {x : Entry ε} (hs : s'.recvs = Function.update s.recvs i ⟨(s.recvs i).task, .holding x⟩) :
    s'.hungry = s.hungry \ {i} ∧ ∀ j, Awaits s' j → j ≠ i ∧ Awaits s j := by
  have hother {j : Nat} (hj : j ≠ i) : s'.recvs j = s.recvs j := by rw [hs, Function.update_of_ne hj]
  have hself : i ∉ s'.hungry := by
    rw [mem_hungry, hs, Function.update_self]
    simp [Recv.hungry]
  have hmem {j : Nat} (hj : j ≠ i) : j ∈ s'.hungry ↔ j ∈ s.hungry := by
    rw [mem_hungry, hother hj, mem_hungry]
  constructor
  · ext j
    by_cases hj : j = i
    · subst hj
      simp [hself]
    · rw [hmem hj]; simp [hj]
  · rintro j ⟨hw, hm⟩
    have hj : j ≠ i := by rintro rfl; exact hself hm
    rw [hother hj] at hw
    exact ⟨hj, hw, (hmem hj).1 hm⟩

/-- One entry less, and one worker less to serve. -/
theorem Covered.take {x : Entry ε} (hc : Covered s (n + 1)) (hi : i ∈ s.hungry)
    (hs : s'.recvs = Function.update s.recvs i ⟨(s.recvs i).task, .holding x⟩) : Covered s' n := by
  obtain ⟨hset, hsub⟩ := hungry_take hs
  rintro ⟨j, hj⟩
  have hle := hc ⟨j, (hsub j hj).2⟩
  rw [← Set.encard_sdiff_singleton_add_one hi, ← hset, Nat.cast_add, Nat.cast_one] at hle
  exact (ENat.add_le_add_iff_right ENat.one_ne_top).1 hle

/-- A call that begins adds one worker. -/
theorem hungry_recv (hs : s'.recvs = Function.update s.recvs i ⟨.waiting, .queued⟩) :
    s'.hungry = insert i s.hungry := by
  ext j
  rw [mem_hungry, hs]
  by_cases hj : j = i
  · subst hj
    rw [Function.update_self]
    simp [Recv.hungry]
  · rw [Function.update_of_ne hj]
    simp [hj, mem_hungry]

/-! ## No reader is stranded -/

/-- Once the owner is out of its loop, the entries left are enough for the workers if a call waits. -/
def Served (s : State σ κ ε) : Prop := s.pc.over = true → Covered s s.items.waiting.length

theorem Inv.no_wait (hi : Inv s) (h : s.pc.starting = true) (n : Nat) : Covered s n := by
  rintro ⟨i, hw, -⟩
  rw [hi.quiet (hi.starting h) i] at hw; cases hw

theorem served_step (hi : Inv s) (hs : Served s) (hc : Supplied s a) (h : Step s a s') : Served s' := by
  unfold Served at hs ⊢
  cases h with
  | @call k p hn =>
    intro ho
    obtain ⟨h1, h2⟩ := over_not_running ho
    obtain ⟨h3, h4, h5, -⟩ := next_phase hn
    simp only at h1 h2
    rw [← h3, ← h4, h1, h2] at h5
    rcases h5 with h | h <;> cases h
  | giveUp | publish | publishLate | abandon | check => intro ho; cases ho
  | put =>
    intro ho
    have := (over_not_running ho).2
    simp only [afterRead_serving, Bool.true_eq_false] at this
  | report hp | abandonClient hp =>
    exact fun _ => (hi.no_wait (by rw [hp]; rfl) _).frame rfl
  | checkStop hp hstop =>
    simp only [Supplied, hp] at hc
    exact fun _ => (hc hstop).frame rfl
  | fail hp | putEnd hp =>
    simp only [Supplied, hp] at hc
    intro _
    rw [Fifo.put_waiting, List.length_append]
    exact hc.frame rfl
  | streamClose hp | clientClose hp => exact fun _ => (hs (by rw [hp]; rfl)).frame rfl
  | @recv i v =>
    intro ho _
    rw [hungry_recv (s := s) (i := i) rfl]
    exact (Set.encard_insert_le ..).trans (hc ho)
  | @start i hw =>
    exact fun ho => (hs ho).setRecv (i := i) rfl (fun _ => by unfold Recv.hungry; rw [hw]) (fun _ ht => ht)
  | @take i x q hw hg =>
    intro ho
    have hn := hs ho
    rw [(Fifo.get_some hg).1, List.length_cons] at hn
    exact hn.take (i := i) (x := x) (by rw [mem_hungry]; unfold Recv.hungry; rw [hw]) rfl
  | deliver =>
    exact fun ho => (hs ho).setRecv rfl (fun h => by cases h) (fun h => by cases h)
  | @cancelRecv i ht =>
    refine fun ho => (hs ho).setRecv (i := i) rfl (fun h => ?_) (fun _ h => by cases h)
    unfold Recv.hungry Recv.cancel at *
    cases hw : (s.recvs i).worker <;> simp_all
  | resume | cancelStream | aclose | acloseJoin | acloseCancel => exact fun ho => (hs ho).frame rfl

theorem Served.not_stranded (hs : Served s) : ¬ Stranded s := by
  rintro ⟨hp, hw, i, hi⟩
  have hle := hs (by rw [hp]; rfl) ⟨i, hi⟩
  rw [hw, List.length_nil, Nat.cast_zero, nonpos_iff_eq_zero, Set.encard_eq_zero] at hle
  have := hi.2
  rw [hle] at this
  exact this

/-- On a run whose owner leaves its loop with an entry for each worker, and whose later calls each
find one, no reachable state has a call waiting on the empty queue of a finished owner. -/
theorem no_reader_stranded {as : List (Act σ κ ε)} (h : runs step init as = some s)
    (hm : Meets step Supplied init as) : ¬ Stranded s := by
  have hk : Inv s ∧ Served s :=
    meets_inv (I := fun s => Inv s ∧ Served s)
      (fun s a s' hi hc h => ⟨inv_step hi.1 (step_cases h), served_step hi.1 hi.2 hc (step_cases h)⟩)
      as ⟨init_inv, fun ho => by cases ho⟩ hm h
  exact hk.2.not_stranded

/-! ## The condition is needed -/

/-- The worker of a hungry call takes the oldest entry. -/
theorem hungry_takes {x : Entry ε} {q : Fifo (Entry ε)} (hj : j ∈ s.hungry) (hg : s.items.get = some (x, q)) :
    ∃ bs t, runs step s bs = some t ∧ t.pc = s.pc ∧ t.items = q ∧
      t.recvs = Function.update s.recvs j ⟨(s.recvs j).task, .holding x⟩ := by
  have htake {s : State σ κ ε} (hw : (s.recvs j).worker = .running) (hg : s.items.get = some (x, q)) :
      step s (.take j) = some ({ s with items := q }.setRecv j ⟨(s.recvs j).task, .holding x⟩) := by
    have hr : s.recvs j = ⟨(s.recvs j).task, .running⟩ := by rw [← hw]
    simp only [step]
    rw [hr, hg]
  rw [mem_hungry] at hj
  unfold Recv.hungry at hj
  split at hj
  · rename_i hw
    -- still queued in the pool: a thread takes the worker first
    have hr : s.recvs j = ⟨(s.recvs j).task, .queued⟩ := by rw [← hw]
    set s₁ := s.setRecv j ⟨(s.recvs j).task, .running⟩ with hs₁
    have hstart : step s (.start j) = some s₁ := by
      simp only [step]
      rw [hr]
    have hself : s₁.recvs j = ⟨(s.recvs j).task, .running⟩ := Function.update_self ..
    refine ⟨[.start j] ++ [.take j], _, runs_append step (runs_one step hstart)
      (runs_one step (htake (s := s₁) (by rw [hself]) hg)), ?_, ?_, ?_⟩
    · rfl
    · rfl
    · show Function.update (Function.update s.recvs j _) j _ = _
      rw [Function.update_idem, hself]
  · rename_i hw
    refine ⟨[.take j], _, runs_one step (htake hw hg), ?_, ?_, ?_⟩ <;> rfl
  · cases hj

/-- With fewer entries than workers after the last put, a call can be left waiting. -/
theorem short_strands (n : Nat) : ∀ {s : State σ κ ε}, s.items.waiting.length = n → s.pc.over = true → Awaits s i →
    ¬ s.hungry.encard ≤ n → ∃ bs t, runs step s bs = some t ∧ Stranded t := by
  -- the entries go to other workers one by one, so that the waiting call gets none
  induction n with
  | zero =>
    intro s hlen ho hw _
    have hnil := List.length_eq_zero_iff.1 hlen
    cases hp : s.pc with
    | streamClose =>
      have h1 : step s .owner = some { s with pc := .clientClose, stream := s.stream.close } := by
        simp only [step, ownerStep, hp]
      have h2 := runs_append step (runs_one step h1) (runs_one step (a := .owner) rfl)
      exact ⟨_, _, h2, rfl, hnil, i, hw⟩
    | clientClose =>
      have h1 : step s .owner = some { s with pc := .finished, client := s.client.close } := by
        simp only [step, ownerStep, hp]
      exact ⟨_, _, runs_one step h1, rfl, hnil, i, hw⟩
    | finished => exact ⟨[], s, rfl, hp, hnil, i, hw⟩
    | _ => rw [hp] at ho; cases ho
  | succ n ih =>
    intro s hlen ho hw hlt
    obtain ⟨x, xs, hcons⟩ := List.exists_cons_of_length_eq_add_one hlen
    have hone : 1 < s.hungry.encard := by
      refine lt_of_le_of_lt ?_ (not_le.1 hlt)
      exact_mod_cast Nat.le_add_left 1 n
    obtain ⟨j, hj, hji⟩ := Set.exists_ne_of_one_lt_encard hone i
    have hg : s.items.get = some (x, ⟨s.items.taken ++ [x], xs⟩) := by
      unfold Fifo.get
      rw [hcons]
    obtain ⟨bs, t, hbs, hpc, hitems, hrecvs⟩ := hungry_takes hj hg
    have hset := (hungry_take hrecvs).1
    have haw : Awaits t i := by
      refine ⟨?_, ?_⟩
      · rw [hrecvs, Function.update_of_ne hji.symm]; exact hw.1
      · rw [hset]; exact ⟨hw.2, hji.symm⟩
    have hlen' : t.items.waiting.length = n := by
      rw [hcons, List.length_cons] at hlen
      rw [hitems]; exact Nat.succ.inj hlen
    have hlt' : ¬ t.hungry.encard ≤ n := by
      intro hle
      refine hlt ?_
      rw [← Set.encard_sdiff_singleton_add_one hj, ← hset, Nat.cast_add, Nat.cast_one]
      exact add_le_add_left hle 1
    obtain ⟨cs, u, hcs, hu⟩ := ih hlen' (by rwa [hpc]) haw hlt'
    exact ⟨bs ++ cs, u, runs_append step hbs hcs, hu⟩

theorem not_covered (h : ¬ Covered s n) : (∃ i, Awaits s i) ∧ ¬ s.hungry.encard ≤ n := by
  unfold Covered at h
  exact Classical.not_imp.1 h

/-- Each step that breaks the condition leaves a state from which some call can be left waiting. -/
theorem unsupplied_strands {as : List (Act σ κ ε)} (h : runs step init as = some s) (hs : step s a = some s')
    (hc : ¬ Supplied s a) : ∃ bs t, runs step s' bs = some t ∧ Stranded t := by
  have hinv := runs_inv h
  cases step_cases hs with
  | checkStop hp hstop =>
    simp only [Supplied, hp, hstop, forall_const] at hc
    obtain ⟨⟨i, hi⟩, hlt⟩ := not_covered hc
    exact short_strands _ rfl rfl hi hlt
  | fail hp | putEnd hp =>
    simp only [Supplied, hp] at hc
    obtain ⟨⟨i, hi⟩, hlt⟩ := not_covered hc
    refine short_strands (i := i) _ ?_ rfl hi hlt
    rw [Fifo.put_waiting, List.length_append]; rfl
  | @recv i v _ hidle =>
    simp only [Supplied, Classical.not_imp] at hc
    obtain ⟨ho, hlt⟩ := hc
    -- a call that has not begun has no worker yet
    have hnot : i ∉ s.hungry := by
      have hok := hinv.recvs i
      rw [mem_hungry]
      unfold Recv.Ok at hok
      unfold Recv.hungry
      rw [hidle] at hok
      cases hw : (s.recvs i).worker <;> rw [hw] at hok <;> simp at hok ⊢
    have hset : (s.setRecv i ⟨.waiting, .queued⟩).hungry = insert i s.hungry := hungry_recv rfl
    refine short_strands (i := i) _ rfl ho ⟨?_, ?_⟩ ?_
    · show (Function.update s.recvs i ⟨.waiting, .queued⟩ i).task = _
      rw [Function.update_self]
    · rw [hset]; exact Set.mem_insert ..
    · rw [hset, Set.encard_insert_of_notMem hnot]; exact hlt
  | giveUp hp | report hp | publish hp _ | publishLate hp _ | abandon hp | abandonClient hp | put hp | streamClose hp
  | clientClose hp => exact absurd (by simp only [Supplied, hp]) hc
  | check hp hstop => exact absurd (by simp only [Supplied, hp, hstop, Bool.false_eq_true, false_implies]) hc
  | _ => exact absurd trivial hc

/-- Two calls for two entries, the second made after the owner ended. -/
def readTwo : List (Act Nat Nat Unit) :=
  startUp ++ [.recv 0, .start 0, .owner, .call (.recv (.ok ([1, 2], true))), .owner, .call (.verify (.ok ())), .owner,
    .take 0, .deliver 0, .owner, .owner, .recv 1, .start 1]

theorem no_reader_stranded_two : ∃ s, runs step init readTwo = some s ∧ s.pc = .finished ∧
    (s.recvs 1).worker = .running ∧ ¬ Stranded s := by
  refine ⟨_, rfl, rfl, rfl, no_reader_stranded (show runs step init readTwo = some _ from rfl) ?_⟩
  have hnone : ∀ s : State Nat Nat Unit, (∀ i, (s.recvs i).hungry = false) → s.hungry.encard = 0 := by
    intro s hs
    rw [Set.encard_eq_zero, Set.eq_empty_iff_forall_notMem]
    intro i hi
    rw [mem_hungry, hs i] at hi; cases hi
  have hone : ∀ s : State Nat Nat Unit, (∀ i, i ∈ s.hungry → i = 0) → s.hungry.encard ≤ 1 := by
    intro s hs
    rw [Set.encard_le_one_iff]
    intro i j hi hj
    rw [hs i hi, hs j hj]
  refine ⟨trivial, trivial, trivial, trivial, trivial, trivial, trivial, trivial, (fun h => by cases h), trivial,
    (fun h => by cases h), trivial, trivial, trivial, (fun _ => ?_), trivial, trivial, trivial, trivial, (fun _ => ?_),
    trivial, trivial⟩
  · refine (hone _ ?_).trans (Nat.one_le_cast.2 (Nat.le_add_left 1 _))
    rintro (_ | i) hi
    · rfl
    · cases hi
  · refine le_of_eq_of_le (congrArg (· + 1) (hnone _ ?_)) (le_of_eq_of_le (zero_add 1) (Nat.one_le_cast.2 ?_))
    · rintro (_ | _ | i) <;> rfl
    · exact Nat.le_refl 1

/-- The stream is closed while a call waits for its first chunk: the owner's stop check ends the loop,
and nothing is put for the call. -/
def closeWhileReading : List (Act Nat Nat Unit) :=
  startUp ++ [.recv 0, .start 0, .aclose 0, .owner, .owner, .owner]

theorem reader_stranded : ∃ s, runs step init closeWhileReading = some s ∧ Stranded s :=
  ⟨_, rfl, rfl, rfl, 0, rfl, rfl⟩

end Nwep.Runtime.Stream
