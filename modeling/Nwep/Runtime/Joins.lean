/-
The managed closes come to an end: an owner thread that was asked to stop ends after a bounded number of
its steps, so a `shutdown` or `aclose` that joins it returns.

What the owner has in hand bounds its steps, with what still comes in: commands put on its queue, and for
a lookup of the server the readings of the clock before its deadline.
-/
import Nwep.Runtime.Closed
import Nwep.Runtime.Serve.Waits

namespace Nwep.Runtime

open Lib

/-! ## The server -/

namespace Serve

variable {ν α μ ε : Type*} {cfg : Config α} {s s' : State ν α μ ε} {p p' : Pc ν α μ ε} {k : Call ν α μ ε}

/-- The steps from `_resolve_blocking` to the end of a stopped owner, when its deadline is past. -/
def Blocking.rest : Blocking → ℕ
  | .tick _ => 18
  | .dhtTick _ => 17
  | .again _ => 16
  | .lookup | .fileno _ => 15
  | .startLookup | .nextTimeout _ => 14
  | .deadline | .wait _ _ => 13
  | .check _ => 12

/-- The steps to the end of a stopped owner whose queue is empty. -/
def Pc.rest : Pc ν α μ ε → ℕ
  | .blocking _ _ b => b.rest
  | .metrics _ => 12
  | .resolve _ _ => 11
  | .reject _ _ => 10
  | .service => 9
  | .tick => 8
  | .dhtTick => 7
  | .announce _ => 6
  | .nextTimeout => 5
  | .wait _ | .fileno => 4
  | .check => 3
  | .dhtClose => 2
  | .serverClose => 1
  | _ => 0

/-- Each command on the queue costs its way through the owner's hands. -/
def State.rest (s : State ν α μ ε) : ℕ := s.pc.rest + 7 * s.bridge.queue.waiting.length

/-- A step that gives the owner more to do: a command put, or a reading of the clock before the deadline of
the lookup in its hands. -/
def further (s : State ν α μ ε) : Act ν α μ ε → Bool
  | .put _ => true
  | .call (.monotonic now) => match s.pc with
    | .blocking _ _ (.check deadline) => now < deadline
    | _ => false
  | _ => false

/-- The owner has ended, and every `shutdown` that joins it can return. -/
def Over (cfg : Config α) (s : State ν α μ ε) : Prop :=
  s.pc = .finished ∧ ∀ i, s.closers i = .joining →
    ∃ s', step cfg s (.shutdownJoin i) = some s' ∧ s'.closers i = .returned

theorem closing_rest : (closing cfg : Pc ν α μ ε).rest ≤ 2 := by
  unfold closing
  split <;> simp [Pc.rest]

theorem dispatch_rest (c : Cmd (Command ν)) : (dispatch c : Pc ν α μ ε).rest ≤ 15 := by
  unfold dispatch
  split <;> simp [Pc.rest, Blocking.rest]

/-- The pump comes nearer to its end with every call, but for a reading of the clock before its deadline. -/
theorem blocked_rest {timeout : ℚ} {b b' : Blocking} (h : b.next timeout k = some (.next b')) :
    b'.rest + 1 ≤ b.rest ∨ ∃ d now, b = .check d ∧ k = .monotonic now ∧ now < d ∧ b' = .tick d := by
  unfold Blocking.next at h
  split at h
  all_goals first
    | (cases h <;> exact .inl (by simp [Blocking.rest]))
    | skip
  -- what is left is the deadline looked at
  rename_i d now
  by_cases hd : now < d
  · rw [if_pos hd] at h
    cases h
    exact .inr ⟨d, now, rfl, rfl, hd, rfl⟩
  · rw [if_neg hd] at h
    cases h

theorem rest_pos (b : Blocking) : 12 ≤ b.rest := by cases b <;> simp [Blocking.rest]

/-- A call of a stopped owner brings it nearer to its end, but for those that give it more to do. -/
theorem call_rest (h : Next cfg s.lastAnnounce s.pc k p) (ha : s.pc.starting = false) :
    p.rest + 1 ≤ s.pc.rest + if further s (.call k) then 7 else 0 := by
  unfold further
  generalize s.pc = pc at h ha ⊢
  cases h with
  | @blocked c timeout b b' k hb =>
    rcases blocked_rest hb with hle | ⟨d, now, rfl, rfl, hlt, rfl⟩
    · simp only [Pc.rest]
      omega
    · simp [Pc.rest, Blocking.rest, hlt]
  | @resolved c timeout b k x hb | @unresolved c timeout b k e hb =>
    have := rest_pos b
    simp only [Pc.rest]
    omega
  | fail hf =>
    refine (Nat.succ_le_succ closing_rest).trans (Nat.le_add_right_of_le ?_)
    rcases fails_pc hf with rfl | rfl | rfl | ⟨now, rfl⟩ | rfl <;> simp [Pc.rest]
  | buildDht | build | buildFail | attach | attachFail | bootstrap | bootstrapFail | nodeId | nodeIdFail | localPort
  | localPortFail => cases ha
  | _ => simp [Pc.rest]

/-- Asked to stop. -/
structure Stopping (s : State ν α μ ε) : Prop where
  stop : s.stop = true
  away : s.pc.starting = false

/-- The owner makes a step, and what it has in hand is less. -/
theorem stopping_on (hst : s'.stop = true) (haway : s'.pc.starting = false) (h : s'.rest + 1 ≤ s.rest) :
    Stopping s' ∧ s'.rest + (if (.owner : Act ν α μ ε).isOwner then 1 else 0) ≤
      s.rest + if further s .owner then 7 else 0 :=
  ⟨⟨hst, haway⟩, h⟩

theorem stopping_step {a : Act ν α μ ε} (hs : Stopping s) (h : Step cfg s a s') :
    Stopping s' ∧ s'.rest + (if a.isOwner then 1 else 0) ≤ s.rest + if further s a then 7 else 0 := by
  have hst := hs.stop
  have haway := hs.away
  cases h with
  | @call k p hn =>
    have hp : p.starting = false := by
      by_contra hp
      have := (next_phase hn).2.1 (by simpa using hp)
      rw [haway] at this; cases this
    have hrest := call_rest hn haway
    refine ⟨⟨(note_stop k).trans hst, hp⟩, ?_⟩
    simp only [State.rest, note_bridge, Act.isOwner, if_true]
    omega
  | giveUp hp | report hp | publish hp _ | publishLate hp _ | abandon hp => rw [hp] at haway; cases haway
  | check _ hf => rw [hst] at hf; cases hf
  | checkStop hp _ | rejectClosed hp _ =>
    refine stopping_on hst closing_starting ?_
    unfold State.rest
    refine (Nat.succ_le_succ (Nat.add_le_add_right closing_rest _)).trans ?_
    rw [hp]
    simp only [Pc.rest]
    omega
  | @take c b hp hg =>
    refine stopping_on hst (dispatch_starting c) ?_
    unfold State.rest
    refine (Nat.succ_le_succ (Nat.add_le_add_right (dispatch_rest c) _)).trans ?_
    rw [hp, Bridge.get_waiting hg, List.length_cons]
    simp only [Pc.rest]
    omega
  | takeStop hp hg =>
    refine stopping_on hst haway ?_
    simp only [State.rest, Bridge.get_waiting hg, List.length_cons]
    omega
  | serviced hp _ | resolveClosed hp _ | dhtClose hp | serverClose hp =>
    refine stopping_on hst rfl ?_
    unfold State.rest
    rw [hp]
    simp only [Pc.rest]
    omega
  | resolve hp hb | reject hp hb =>
    refine stopping_on hst rfl ?_
    unfold State.rest
    rw [hp, (Bridge.callSoon_taken hb).1]
    simp only [Pc.rest]
    omega
  | put _ _ hb =>
    refine ⟨⟨hst, haway⟩, ?_⟩
    simp only [State.rest, Bridge.put_frame hb, Fifo.put_waiting, List.length_append, List.length_singleton,
      Act.isOwner, further, if_true, Bool.false_eq_true, if_false]
    omega
  | runLoop hr =>
    refine ⟨⟨hst, haway⟩, ?_⟩
    simp only [State.rest, (Bridge.runLoop_frame hr).1]
    exact Nat.le_refl _
  | shutdown => exact ⟨⟨rfl, haway⟩, Nat.le_refl _⟩
  | resume | cancelServe | cancelCommand | shutdownJoin | shutdownCancel | closeLoop =>
    exact ⟨⟨hst, haway⟩, Nat.le_refl _⟩

/-- A call of the pump that it can go on with. -/
def Blocking.ahead : Blocking → Call ν α μ ε
  | .lookup | .again _ => .lookupResult (.ok none)
  | .startLookup => .startLookup 0 (.ok ())
  | .deadline | .check _ => .monotonic 0
  | .tick _ => .tick (.ok ())
  | .dhtTick _ => .dhtTick 0 (.ok ())
  | .fileno _ => .fileno (.ok ())
  | .nextTimeout _ => .dhtNextTimeout (.ok none)
  | .wait _ _ => .wait

theorem blocked_ahead (timeout : ℚ) (b : Blocking) : ∃ r, b.next timeout (b.ahead : Call ν α μ ε) = some r := by
  cases b with
  | check d =>
    simp only [Blocking.next, Blocking.ahead]
    split <;> exact ⟨_, rfl⟩
  | _ => exact ⟨_, rfl⟩

/-- A stopped owner can always step, until it has ended. -/
theorem stopping_next [Inhabited μ] (hs : Stopping s) :
    Over cfg s ∨ ∃ a s', Act.isOwner a = true ∧ step cfg s a = some s' := by
  have haway := hs.away
  have hst := hs.stop
  have call (k : Call ν α μ ε) {p' : Pc ν α μ ε} (h : s.pc.next cfg s.lastAnnounce k = some p') :
      ∃ a s', Act.isOwner a = true ∧ step cfg s a = some s' := ⟨.call k, _, rfl, by simp only [step, h]; rfl⟩
  have owner {s' : State ν α μ ε} (h : ownerStep cfg s = some s') :
      ∃ a s', Act.isOwner a = true ∧ step cfg s a = some s' := ⟨.owner, s', rfl, h⟩
  cases hp : s.pc with
  | finished =>
    refine .inl ⟨hp, fun i hi => ?_⟩
    simp only [step, hi, hp]
    exact ⟨_, rfl, Function.update_self _ _ _⟩
  | fileno => exact .inr (call (.fileno (.ok ())) (by rw [hp]; rfl))
  | blocking c timeout b =>
    obtain ⟨r, hr⟩ := blocked_ahead (ν := ν) (α := α) (μ := μ) (ε := ε) timeout b
    exact .inr (call b.ahead (by rw [hp]; simp only [Pc.next, hr]; rfl))
  | metrics c => exact .inr (call (.metrics (.ok default)) (by rw [hp]; rfl))
  | tick => exact .inr (call (.tick (.ok ())) (by rw [hp]; rfl))
  | dhtTick => exact .inr (call (.dhtTick 0 (.ok ())) (by rw [hp]; rfl))
  | announce now => exact .inr (call (.announce (.ok ())) (by rw [hp]; rfl))
  | nextTimeout => exact .inr (call (.nextTimeout (.ok none)) (by rw [hp]; rfl))
  | wait timeout => exact .inr (call .wait (by rw [hp]; rfl))
  | check => exact .inr (owner (by simp only [ownerStep, hp, hst, if_true]; rfl))
  | service =>
    refine .inr ?_
    cases hg : s.bridge.get with
    | none => exact owner (by simp only [ownerStep, hp, hg]; rfl)
    | some x =>
      obtain ⟨c | _, b⟩ := x
      · exact owner (by simp only [ownerStep, hp, hg]; rfl)
      · exact owner (by simp only [ownerStep, hp, hg]; rfl)
  | resolve c r =>
    refine .inr ?_
    cases hb : s.bridge.callSoon c (.ok r) with
    | none => exact owner (by simp only [ownerStep, hp, hb]; rfl)
    | some b => exact owner (by simp only [ownerStep, hp, hb]; rfl)
  | reject c e =>
    refine .inr ?_
    cases hb : s.bridge.callSoon c (.error e) with
    | none => exact owner (by simp only [ownerStep, hp, hb]; rfl)
    | some b => exact owner (by simp only [ownerStep, hp, hb]; rfl)
  | dhtClose | serverClose => exact .inr (owner (by simp only [ownerStep, hp]; rfl))
  | _ => rw [hp] at haway; cases haway

/-- Only a `shutdown` asks for the stop, and only when there is a `RunningServer`. -/
theorem asked_step {a : Act ν α μ ε} (hi : ∀ i, s.closers i = .joining → s.stop = true) (h : Step cfg s a s') :
    ∀ i, s'.closers i = .joining → s'.stop = true := by
  cases h with
  | call => simpa only [note_stop, note_closers] using hi
  | shutdown => exact fun _ _ => rfl
  | @shutdownJoin i hc | @shutdownCancel i hc => exact fun _ _ => hi i hc
  | _ => exact hi

/-- A `shutdown` that joins the owner returns: on every run from there on the owner makes at most `rest` steps, and
seven more for each command put and each reading of the clock before the deadline of a lookup, and it can make
its next one until it has ended and the join can return. -/
theorem shutdown_returns [Inhabited μ] {as : List (Act ν α μ ε)} (h : runs (step cfg) init as = some s) {i : Nat}
    (hj : s.closers i = .joining) : Concludes (step cfg) Act.isOwner further (Over cfg) s.rest 7 s := by
  obtain ⟨hi, hjoin, hstop⟩ : Inv s ∧ Joined s.closers s.handoff.Published (s.pc = .finished) ∧
      ∀ i, s.closers i = .joining → s.stop = true :=
    Lib.runs_inv (I := fun s => Inv s ∧ Joined s.closers s.handoff.Published (s.pc = .finished) ∧
        ∀ i, s.closers i = .joining → s.stop = true)
      (fun _ _ _ hi h => ⟨inv_step hi.1 (step_cases h), joined_step hi.1 hi.2.1 (step_cases h),
        asked_step hi.2.2 (step_cases h)⟩)
      as ⟨init_inv, Joined.idle, fun _ h => by cases h⟩ h
  have haway : s.pc.starting = false := by
    by_contra hs
    exact hi.starting (by simpa using hs) (hjoin.published i (by rw [hj]; simp))
  exact concludes_of_rank Stopping State.rest (fun _ _ _ hs h => stopping_step hs (step_cases h))
    (fun _ hs => stopping_next hs) ⟨hstop i hj, haway⟩

end Serve

/-! ## The client -/

namespace ConnectAsync

variable {ε ρ : Type*} {s s' : State ε ρ}

/-- The steps to the end of an owner that finds the stop next on its queue. -/
def Pc.rest : Pc ε ρ → ℕ
  | .send _ => 5
  | .resolve _ _ => 4
  | .reject _ _ | .tick | .drainReject _ => 3
  | .get | .drain => 2
  | .close => 1
  | _ => 0

/-- Each item on the queue costs its way through the owner's hands. -/
def State.rest (s : State ε ρ) : ℕ := s.pc.rest + 4 * s.bridge.queue.waiting.length

/-- A step that gives the owner more to do: a command put, or another stop. -/
def further (_ : State ε ρ) : Act ε ρ → Bool
  | .put _ | .acloseStop _ => true
  | _ => false

/-- The owner has ended, and every `aclose` that joins it can return. -/
def Over (s : State ε ρ) : Prop :=
  s.pc = .finished ∧ ∀ i, s.closers i = .joining →
    ∃ s', step s (.acloseJoin i) = some s' ∧ s'.closers i = .returned

/-- Asked to stop: the stop is on the queue, or the owner has left its loop. -/
structure Stopping (s : State ε ρ) : Prop where
  away : s.pc.starting = false
  asked : s.pc.ending = true ∨ .stop ∈ s.bridge.queue.waiting

theorem stopping_step {a : Act ε ρ} (hs : Stopping s) (h : Step s a s') :
    Stopping s' ∧ s'.rest + (if a.isOwner then 1 else 0) ≤ s.rest + if further s a then 4 else 0 := by
  have haway := hs.away
  have hasked := hs.asked
  cases h with
  | connectOk hp | connectFail hp | report hp | publish hp _ | publishLate hp _ | abandon hp =>
    rw [hp] at haway; cases haway
  | timeout hp hg =>
    -- the stop is there to be taken
    rw [hp, Bridge.get_none.1 hg] at hasked
    rcases hasked with h | h <;> cases h
  | take hp hg =>
    rw [hp, Bridge.get_waiting hg] at hasked
    refine ⟨⟨rfl, .inr ?_⟩, ?_⟩
    · rcases hasked with h | h
      · cases h
      · exact (List.mem_cons.1 h).resolve_left (by simp)
    · simp only [State.rest, hp, Bridge.get_waiting hg, Pc.rest, Act.isOwner, further, List.length_cons, if_true]
      omega
  | takeStop hp hg | drain hp hg =>
    refine ⟨⟨rfl, .inl rfl⟩, ?_⟩
    simp only [State.rest, hp, Bridge.get_waiting hg, Pc.rest, Act.isOwner, further, List.length_cons, if_true]
    omega
  | drainStop hp hg =>
    refine ⟨⟨haway, .inl (by rw [hp]; rfl)⟩, ?_⟩
    simp only [State.rest, Bridge.get_waiting hg, Act.isOwner, further, List.length_cons, if_true]
    omega
  | tickOk hp | sendOk hp | sendFail hp | resolveClosed hp _ =>
    rw [hp] at hasked
    refine ⟨⟨rfl, .inr (hasked.resolve_left (by simp [Pc.ending]))⟩, ?_⟩
    simp only [State.rest, hp, Pc.rest, Act.isOwner, further, if_true]
    omega
  | resolve hp hb | reject hp hb =>
    have hq := (Bridge.callSoon_taken hb).1
    rw [hp] at hasked
    refine ⟨⟨rfl, .inr (hq ▸ hasked.resolve_left (by simp [Pc.ending]))⟩, ?_⟩
    simp only [State.rest, hp, hq, Pc.rest, Act.isOwner, further, if_true]
    omega
  | drainReject hp hb =>
    refine ⟨⟨rfl, .inl rfl⟩, ?_⟩
    simp only [State.rest, hp, (Bridge.callSoon_taken hb).1, Pc.rest, Act.isOwner, further, if_true]
    omega
  | tickFail hp | rejectClosed hp _ | drainEmpty hp _ | drainClosed hp _ | close hp =>
    refine ⟨⟨rfl, .inl rfl⟩, ?_⟩
    simp only [State.rest, hp, Pc.rest, Act.isOwner, further, if_true]
    omega
  | put _ hb =>
    refine ⟨⟨haway, hasked.imp_right fun h => ?_⟩, ?_⟩
    · rw [Bridge.put_frame hb]
      exact List.mem_append_left _ h
    · simp only [State.rest, Bridge.put_frame hb, Fifo.put_waiting, List.length_append, List.length_singleton,
        Act.isOwner, further, if_true, Bool.false_eq_true, if_false]
      omega
  | acloseStop =>
    refine ⟨⟨haway, hasked.imp_right fun h => List.mem_append_left _ h⟩, ?_⟩
    simp only [State.rest, Bridge.putStop, Fifo.put_waiting, List.length_append, List.length_singleton, Act.isOwner,
      further, if_true, Bool.false_eq_true, if_false]
    omega
  | runLoop hr =>
    have hq := (Bridge.runLoop_frame hr).1
    refine ⟨⟨haway, by rw [hq]; exact hasked⟩, ?_⟩
    simp only [State.rest, hq]
    exact Nat.le_refl _
  | resume | cancelConnect | check | checkClosed | cancelSend | aclose | acloseAgain | acloseJoin | acloseCancel
  | closeLoop => exact ⟨⟨haway, hasked⟩, Nat.le_refl _⟩

/-- An owner asked to stop can always step, until it has ended. -/
theorem stopping_next [Inhabited ρ] (hs : Stopping s) :
    Over s ∨ ∃ a s', Act.isOwner a = true ∧ step s a = some s' := by
  have haway := hs.away
  have hasked := hs.asked
  have owner {s' : State ε ρ} (h : ownerStep s = some s') : ∃ a s', Act.isOwner a = true ∧ step s a = some s' :=
    ⟨.owner, s', rfl, h⟩
  cases hp : s.pc with
  | finished =>
    refine .inl ⟨hp, fun i hi => ?_⟩
    simp only [step, hi, hp]
    exact ⟨_, rfl, Function.update_self _ _ _⟩
  | get =>
    refine .inr ?_
    cases hg : s.bridge.get with
    | none =>
      rw [hp, Bridge.get_none.1 hg] at hasked
      rcases hasked with h | h <;> cases h
    | some x =>
      obtain ⟨c | _, b⟩ := x
      · exact owner (by simp only [ownerStep, hp, hg]; rfl)
      · exact owner (by simp only [ownerStep, hp, hg]; rfl)
  | tick => exact .inr ⟨.tick (.ok ()), _, rfl, by simp only [step, hp]; rfl⟩
  | send c => exact .inr ⟨.send (.ok default), _, rfl, by simp only [step, hp]; rfl⟩
  | resolve c r =>
    refine .inr ?_
    cases hb : s.bridge.callSoon c (.ok r) with
    | none => exact owner (by simp only [ownerStep, hp, hb]; rfl)
    | some b => exact owner (by simp only [ownerStep, hp, hb]; rfl)
  | reject c e =>
    refine .inr ?_
    cases hb : s.bridge.callSoon c (.error e) with
    | none => exact owner (by simp only [ownerStep, hp, hb]; rfl)
    | some b => exact owner (by simp only [ownerStep, hp, hb]; rfl)
  | drain =>
    refine .inr ?_
    cases hg : s.bridge.get with
    | none => exact owner (by simp only [ownerStep, hp, hg]; rfl)
    | some x =>
      obtain ⟨c | _, b⟩ := x
      · exact owner (by simp only [ownerStep, hp, hg]; rfl)
      · exact owner (by simp only [ownerStep, hp, hg]; rfl)
  | drainReject c =>
    refine .inr ?_
    cases hb : s.bridge.callSoon c (.error (.networkClosed "client is closing")) with
    | none => exact owner (by simp only [ownerStep, hp, hb]; rfl)
    | some b => exact owner (by simp only [ownerStep, hp, hb]; rfl)
  | close => exact .inr (owner (by simp only [ownerStep, hp]; rfl))
  | _ => rw [hp] at haway; cases haway

theorem away_step {a : Act ε ρ} (haway : s.pc.starting = false) (h : Step s a s') : s'.pc.starting = false := by
  cases h with
  | connectOk hp | connectFail hp | report hp | publish hp _ | publishLate hp _ | abandon hp =>
    rw [hp] at haway; cases haway
  | drainStop | resume | cancelConnect | check | checkClosed | put | cancelSend | aclose | acloseAgain | acloseStop
  | acloseJoin | acloseCancel | runLoop | closeLoop => exact haway
  | _ => rfl

/-- The owner was published before any `aclose`, and is asked to stop before one joins it. -/
structure Asked (s : State ε ρ) : Prop where
  away : ∀ i, s.closers i ≠ .idle → s.pc.starting = false
  joining : ∀ i, s.closers i = .joining → Stopping s

/-- One `aclose` moves on. -/
theorem Asked.update {i : Nat} {c : CloseCall} (ha : ∀ j, s.closers j = .joining → Stopping s')
    (hcl : s'.closers = Function.update s.closers i c) (haway : s'.pc.starting = false)
    (hc : c = .joining → Stopping s') : Asked s' where
  away _ _ := haway
  joining j hj := by
    rw [hcl] at hj
    by_cases hji : j = i
    · subst hji
      rw [Function.update_self] at hj
      exact hc hj
    · rw [Function.update_of_ne hji] at hj
      exact ha j hj

theorem asked_step {a : Act ε ρ} (hi : Inv s) (ha : Asked s) (h : Step s a s') : Asked s' := by
  have hjoin : ∀ j, s.closers j = .joining → Stopping s' := fun j hj => (stopping_step (ha.joining j hj) h).1
  have haway : ∀ j, s.closers j ≠ .idle → s'.pc.starting = false := fun j hj => away_step (ha.away j hj) h
  have hreturned {v : Unit} (ht : s.handoff.task = .returned v) : s.pc.starting = false := by
    by_contra hs
    exact hi.starting (by simpa using hs) ⟨v, hi.handoff.returned v ht⟩
  cases h with
  | aclose ht _ _ | acloseAgain ht _ _ => exact .update hjoin rfl (hreturned ht) fun h => by cases h
  | @acloseStop i hc =>
    have hstarted : s.pc.starting = false := ha.away i (by rw [hc]; simp)
    exact .update hjoin rfl hstarted fun _ => ⟨hstarted, .inr (List.mem_append_right _ (List.mem_singleton_self _))⟩
  | @acloseJoin i hc _ | @acloseCancel i hc =>
    exact .update hjoin rfl (ha.away i (by rw [hc]; simp)) fun h => by cases h
  | _ => exact ⟨haway, hjoin⟩

/-- An `aclose` that joins the owner returns: on every run from there on the owner makes at most `rest` steps, and
four more for each command or stop put, and it can make its next one until it has ended and the join can
return. -/
theorem aclose_returns [Inhabited ρ] {as : List (Act ε ρ)} (h : runs step init as = some s) {i : Nat}
    (hj : s.closers i = .joining) : Concludes step Act.isOwner further Over s.rest 4 s := by
  have hk : Inv s ∧ Asked s :=
    Lib.runs_inv (I := fun s => Inv s ∧ Asked s)
      (fun _ _ _ hi h => ⟨inv_step hi.1 (step_cases h), asked_step hi.1 hi.2 (step_cases h)⟩)
      as ⟨init_inv, ⟨fun _ h => absurd rfl h, fun _ h => by cases h⟩⟩ h
  exact concludes_of_rank Stopping State.rest (fun _ _ _ hs h => stopping_step hs (step_cases h))
    (fun _ hs => stopping_next hs) (hk.2.joining i hj)

end ConnectAsync

/-! ## The stream -/

namespace Stream

variable {σ κ ε : Type*} {s s' : State σ κ ε} {p : Pc σ ε} {k : Call σ κ ε}

/-- The steps to the end of a stopped owner. -/
def Pc.rest : Pc σ ε → ℕ
  | .recv => 6
  | .put _ _ => 5
  | .peerPubkey | .verify => 4
  | .check | .fail _ | .putEnd => 3
  | .streamClose => 2
  | .clientClose => 1
  | _ => 0

/-- The owner has ended, and every `aclose` that joins it can return. -/
def Over (s : State σ κ ε) : Prop :=
  s.pc = .finished ∧ ∀ i, s.closers i = .joining →
    ∃ s', step s (.acloseJoin i) = some s' ∧ s'.closers i = .returned

/-- Asked to stop. -/
structure Stopping (s : State σ κ ε) : Prop where
  stop : s.stop = true
  away : s.pc.starting = false

theorem afterRead_rest (ended : Bool) : (afterRead ended : Pc σ ε).rest ≤ 4 := by
  cases ended <;> simp [afterRead, Pc.rest]

theorem call_rest (h : Next s.pc k p) (haway : s.pc.starting = false) : p.rest + 1 ≤ s.pc.rest := by
  generalize s.pc = pc at h haway
  cases h with
  | recvEmpty => exact (Nat.succ_le_succ (afterRead_rest _)).trans (by simp [Pc.rest])
  | peerPubkey | peerFail | recv | recvFail | verify | verifyFail => simp [Pc.rest]
  | _ => cases haway

theorem stopping_step {a : Act σ κ ε} (hs : Stopping s) (h : Step s a s') :
    Stopping s' ∧ s'.pc.rest + (if a.isOwner then 1 else 0) ≤ s.pc.rest := by
  have hst := hs.stop
  have haway := hs.away
  cases h with
  | @call k p hn =>
    have hp : p.starting = false := (next_phase hn).1.trans haway
    exact ⟨⟨note_stop.trans hst, hp⟩, call_rest hn haway⟩
  | giveUp hp | report hp | publish hp _ | publishLate hp _ | abandon hp | abandonClient hp =>
    rw [hp] at haway; cases haway
  | check _ hf => rw [hst] at hf; cases hf
  | put hp =>
    refine ⟨⟨hst, afterRead_starting _⟩, (Nat.succ_le_succ (afterRead_rest _)).trans ?_⟩
    rw [hp]
    exact Nat.le_refl _
  | checkStop hp _ | fail hp | putEnd hp | streamClose hp | clientClose hp =>
    exact ⟨⟨hst, rfl⟩, by simp [hp, Pc.rest, Act.isOwner]⟩
  | aclose => exact ⟨⟨rfl, haway⟩, Nat.le_refl _⟩
  | resume | cancelStream | recv | start | take | deliver | cancelRecv | acloseJoin | acloseCancel =>
    exact ⟨⟨hst, haway⟩, Nat.le_refl _⟩

/-- A stopped owner can always step, until it has ended. -/
theorem stopping_next [Inhabited κ] (hs : Stopping s) :
    Over s ∨ ∃ a s', Act.isOwner a = true ∧ step s a = some s' := by
  have haway := hs.away
  have hst := hs.stop
  cases hp : s.pc with
  | finished =>
    refine .inl ⟨hp, fun i hi => ?_⟩
    simp only [step, hi, hp]
    exact ⟨_, rfl, Function.update_self _ _ _⟩
  | peerPubkey => exact .inr ⟨.call (.peerPubkey (.ok default)), _, rfl, by simp only [step, hp, Pc.next]; rfl⟩
  | recv => exact .inr ⟨.call (.recv (.ok ([], true))), _, rfl, by simp only [step, hp, Pc.next]; rfl⟩
  | verify => exact .inr ⟨.call (.verify (.ok ())), _, rfl, by simp only [step, hp, Pc.next]; rfl⟩
  | check => exact .inr ⟨.owner, _, rfl, by simp only [step, ownerStep, hp, hst, if_true]; rfl⟩
  | put chunk ended | fail e | putEnd | streamClose | clientClose =>
    exact .inr ⟨.owner, _, rfl, by simp only [step, ownerStep, hp]; rfl⟩
  | _ => rw [hp] at haway; cases haway

/-- Only an `aclose` asks for the stop. -/
theorem asked_step {a : Act σ κ ε} (hi : ∀ i, s.closers i = .joining → s.stop = true) (h : Step s a s') :
    ∀ i, s'.closers i = .joining → s'.stop = true := by
  cases h with
  | call => simpa only [note_stop, note_closers] using hi
  | aclose => exact fun _ _ => rfl
  | @acloseJoin i hc | @acloseCancel i hc => exact fun _ _ => hi i hc
  | _ => exact hi

/-- An `aclose` that joins the owner returns: on every run from there on the stop stays set, and the owner makes at
most `rest` steps, six at most, and can make its next one until it has ended and the join can return. -/
theorem aclose_returns [Inhabited κ] {as : List (Act σ κ ε)} (h : runs step init as = some s) {i : Nat}
    (hj : s.closers i = .joining) :
    Leaves step (fun _ _ => True) Act.isOwner (fun t => t.stop = false) Over s.pc.rest s := by
  obtain ⟨hi, hjoin, hstop⟩ : Inv s ∧ Joined s.closers s.handoff.Published (s.pc = .finished) ∧
      ∀ i, s.closers i = .joining → s.stop = true :=
    Lib.runs_inv (I := fun s => Inv s ∧ Joined s.closers s.handoff.Published (s.pc = .finished) ∧
        ∀ i, s.closers i = .joining → s.stop = true)
      (fun _ _ _ hi h => ⟨inv_step hi.1 (step_cases h), joined_step hi.1 hi.2.1 (step_cases h),
        asked_step hi.2.2 (step_cases h)⟩)
      as ⟨init_inv, Joined.idle, fun _ h => by cases h⟩ h
  have haway : s.pc.starting = false := by
    by_contra hs
    exact hi.starting (by simpa using hs) (hjoin.published i (by rw [hj]; simp))
  exact leaves_of_rank Stopping (fun s => s.pc.rest) (fun _ _ _ hs _ h => stopping_step hs (step_cases h))
    (fun s hs hf => by rw [hs.stop] at hf; cases hf) (fun _ hs => stopping_next hs) ⟨hstop i hj, haway⟩

end Stream

/-! ## Every managed close -/

variable {ν α μ σ κ ε ρ : Type*}

/-- Every call of a managed close that joins the owner thread returns, once the owner's calls return: from there on
the owner makes a bounded number of steps, and it can make its next one until it has ended and the join can
return. The bound is what it has in hand, with seven steps of a server for each command put and each reading of the
clock before the deadline of a lookup, and four of a client for each item put; a stream makes six at most. -/
theorem closes_return [Inhabited μ] [Inhabited ρ] [Inhabited κ] :
    (∀ (cfg : Serve.Config α) (as : List (Serve.Act ν α μ ε)) (s : Serve.State ν α μ ε),
      runs (Serve.step cfg) Serve.init as = some s → ∀ i, s.closers i = .joining →
        Concludes (Serve.step cfg) Serve.Act.isOwner Serve.further (Serve.Over cfg) s.rest 7 s) ∧
    (∀ (as : List (ConnectAsync.Act ε ρ)) (s : ConnectAsync.State ε ρ),
      runs ConnectAsync.step ConnectAsync.init as = some s → ∀ i, s.closers i = .joining →
        Concludes ConnectAsync.step ConnectAsync.Act.isOwner ConnectAsync.further ConnectAsync.Over s.rest 4 s) ∧
    (∀ (as : List (Stream.Act σ κ ε)) (s : Stream.State σ κ ε),
      runs Stream.step Stream.init as = some s → ∀ i, s.closers i = .joining →
        Leaves Stream.step (fun _ _ => True) Stream.Act.isOwner (fun t => t.stop = false) Stream.Over s.pc.rest s) :=
  ⟨fun _ _ _ h _ hj => Serve.shutdown_returns h hj, fun _ _ h _ hj => ConnectAsync.aclose_returns h hj,
    fun _ _ h _ hj => Stream.aclose_returns h hj⟩

/-- A request in progress, another one behind it, then the stop. -/
def stopBehindSend : List (ConnectAsync.Act Unit Nat) :=
  let c : Cmd ConnectAsync.Request := ⟨0, 0, { method := 0, path := "/hello" }⟩
  let d : Cmd ConnectAsync.Request := ⟨1, 0, { method := 0, path := "/next" }⟩
  [.connect (.ok ()), .owner, .resume, .check c, .check d, .put c, .owner, .put d, .aclose 0, .acloseStop 0]

/-- A read in progress when the stop is set. -/
def stopDuringRead : List (Stream.Act Nat Nat Unit) :=
  Stream.startUp ++ [.owner, .aclose 0]

/-- A server about to take a lookup, a client with two requests ahead of the stop, and a stream that reads. -/
theorem closes_return_runs :
    (∃ s, runs (Serve.step ⟨true, none⟩) Serve.init Serve.stopBeforeLookup = some s ∧
      Concludes (Serve.step ⟨true, none⟩) Serve.Act.isOwner Serve.further (Serve.Over ⟨true, none⟩) 15 7 s) ∧
    (∃ s, runs ConnectAsync.step ConnectAsync.init stopBehindSend = some s ∧
      Concludes ConnectAsync.step ConnectAsync.Act.isOwner ConnectAsync.further ConnectAsync.Over 13 4 s) ∧
    (∃ s, runs Stream.step Stream.init stopDuringRead = some s ∧
      Leaves Stream.step (fun _ _ => True) Stream.Act.isOwner (fun t => t.stop = false) Stream.Over 6 s) := by
  have ht := closes_return (ν := Nat) (α := Nat) (μ := Nat) (σ := Nat) (κ := Nat) (ε := Unit) (ρ := Nat)
  exact ⟨⟨_, rfl, ht.1 ⟨true, none⟩ Serve.stopBeforeLookup _ rfl 0 rfl⟩,
    ⟨_, rfl, ht.2.1 stopBehindSend _ rfl 0 rfl⟩, ⟨_, rfl, ht.2.2 stopDuringRead _ rfl 0 rfl⟩⟩

end Nwep.Runtime
