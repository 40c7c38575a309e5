/-
What the managed server answers a command with: only what came of the calls the owner made for that
command. A resolve is answered with the record its last lookup found, with the exception of its last
call, or, after lookups that all missed, with a timeout that its own clock readings bear out; a scrape
with the counters of its one call. And the answers go out in the order of the commands.
-/
import Nwep.Lib.Observe
import Nwep.Runtime.Serve.Invariant

namespace Nwep.Runtime.Serve

open Lib

/-! ## The answer to a command -/

section Replies

variable {ν α μ ε : Type*}

/-- The exception a call raised. -/
def Call.raised : Call ν α μ ε → Option ε
  | .build (.error e) | .attach (.error e) | .bootstrap _ (.error e) | .nodeId (.error e) | .localPort (.error e)
  | .fileno (.error e) | .tick (.error e) | .dhtTick _ (.error e) | .announce (.error e) | .nextTimeout (.error e)
  | .dhtNextTimeout (.error e) | .lookupResult (.error e) | .startLookup _ (.error e) | .metrics (.error e) => some e
  | _ => none

/-- The reading of the monotonic clock a call is. -/
def Call.reading : Call ν α μ ε → Option ℚ
  | .monotonic t => some t
  | _ => none

/-- The call found no record. -/
def Call.misses : Call ν α μ ε → Bool
  | .lookupResult (.ok none) => true
  | .lookupResult _ => false
  | _ => true

/-- The readings of the monotonic clock, in order. -/
def readings (ks : List (Call ν α μ ε)) : List ℚ := ks.filterMap Call.reading

/-- No lookup found a record. -/
def Missed (ks : List (Call ν α μ ε)) : Prop := ∀ k ∈ ks, k.misses = true

/-- The outcome that the calls `ks`, made for a command, give for it. -/
inductive Replies : Command ν → List (Call ν α μ ε) → Except (Exc ε) (Answer α μ) → Prop
  | found {target : ν} {timeout : ℚ} {ks : List (Call ν α μ ε)} {a : α} : Missed ks →
      Replies (.resolve target timeout) (ks ++ [.lookupResult (.ok (some a))]) (.ok (.address a))
  | timedOut {target : ν} {timeout : ℚ} {ks : List (Call ν α μ ε)} {ts : List ℚ} {t₀ t : ℚ} : Missed ks →
      readings ks = t₀ :: ts ++ [t] → t₀ + timeout ≤ t →
      Replies (.resolve target timeout) ks (.error (.identityNotFound "dht lookup timed out with no record"))
  | failed {target : ν} {timeout : ℚ} {ks : List (Call ν α μ ε)} {k : Call ν α μ ε} {e : ε} : Missed ks →
      k.raised = some e → Replies (.resolve target timeout) (ks ++ [k]) (.error (.raised e))
  | metrics {m : μ} : Replies .dhtMetrics [.metrics (.ok m)] (.ok (.metrics m))
  | metricsFailed {e : ε} : Replies .dhtMetrics [.metrics (.error e)] (.error (.raised e))

theorem readings_append (ks ls : List (Call ν α μ ε)) : readings (ks ++ ls) = readings ks ++ readings ls :=
  List.filterMap_append ..

theorem Missed.concat {ks : List (Call ν α μ ε)} {k : Call ν α μ ε} (h : Missed ks) (hk : k.misses = true) :
    Missed (ks ++ [k]) := by
  intro l hl
  rcases List.mem_append.1 hl with hl | hl
  · exact h l hl
  · rw [List.mem_singleton.1 hl]; exact hk

/-! ### The pump -/

/-- The deadline of the pump, once it is set. -/
def Blocking.due : Blocking → Option ℚ
  | .lookup | .startLookup | .deadline => none
  | .check d | .tick d | .dhtTick d | .again d | .fileno d | .nextTimeout d | .wait d _ => some d

/-- What the calls of the pump so far were. -/
def Pumped (timeout : ℚ) (ks : List (Call ν α μ ε)) : Blocked α ε → Prop
  | .next b => Missed ks ∧ match b.due with
    | none => readings ks = []
    | some d => ∃ t₀ ts, readings ks = t₀ :: ts ∧ d = t₀ + timeout
  | .returned a => ∃ pre, ks = pre ++ [.lookupResult (.ok (some a))] ∧ Missed pre
  | .raised e => (∃ pre k x, ks = pre ++ [k] ∧ Missed pre ∧ k.raised = some x ∧ e = .raised x) ∨
      (Missed ks ∧ e = .identityNotFound "dht lookup timed out with no record" ∧
        ∃ t₀ ts t, readings ks = t₀ :: ts ++ [t] ∧ t₀ + timeout ≤ t)

theorem readings_concat {ks : List (Call ν α μ ε)} {k : Call ν α μ ε} (h : k.reading = none) :
    readings (ks ++ [k]) = readings ks := by
  rw [readings_append]
  simp [readings, h]

/-- The pump goes on towards the same deadline. -/
theorem Pumped.on {timeout : ℚ} {ks : List (Call ν α μ ε)} {k : Call ν α μ ε} {b b' : Blocking}
    (hp : Pumped timeout ks (.next b : Blocked α ε)) (hb : b'.due = b.due) (hm : k.misses = true)
    (hr : k.reading = none) :
    Pumped timeout (ks ++ [k]) (.next b' : Blocked α ε) := by
  obtain ⟨h1, h2⟩ := hp
  refine ⟨h1.concat hm, ?_⟩
  rw [hb, readings_concat hr]; exact h2

/-- The pump ends by the exception of a call. -/
theorem Pumped.fail {timeout : ℚ} {ks : List (Call ν α μ ε)} {k : Call ν α μ ε} {b : Blocking} {e : ε}
    (hp : Pumped timeout ks (.next b : Blocked α ε)) (he : k.raised = some e) :
    Pumped timeout (ks ++ [k]) (.raised (.raised e) : Blocked α ε) := .inl ⟨ks, k, e, rfl, hp.1, he, rfl⟩

theorem pumped_next {timeout : ℚ} {ks : List (Call ν α μ ε)} {k : Call ν α μ ε} {b : Blocking} {r : Blocked α ε}
    (hp : Pumped timeout ks (.next b : Blocked α ε)) (h : b.next timeout k = some r) :
    Pumped timeout (ks ++ [k]) r := by
  unfold Blocking.next at h
  split at h
  -- the first look at the store, and the start of a lookup
  · cases h; exact ⟨ks, rfl, hp.1⟩
  · cases h; exact hp.on rfl rfl rfl
  · cases h; exact hp.fail rfl
  · cases h; exact hp.on rfl rfl rfl
  · cases h; exact hp.fail rfl
  -- the deadline
  · rename_i t
    cases h
    obtain ⟨h1, h2⟩ := hp
    refine ⟨h1.concat rfl, t, [], ?_, rfl⟩
    rw [readings_append, show readings ks = [] from h2]; rfl
  · rename_i d t
    obtain ⟨h1, t₀, ts, h2, h3⟩ := hp
    have hread : readings (ks ++ [.monotonic t]) = t₀ :: ts ++ [t] := by rw [readings_append, h2]; rfl
    split at h
    · cases h
      exact ⟨h1.concat rfl, t₀, ts ++ [t], hread, h3⟩
    · rename_i hlt
      cases h
      refine .inr ⟨h1.concat rfl, rfl, t₀, ts, t, hread, ?_⟩
      rw [← h3]; exact not_lt.1 hlt
  -- a turn of the loop
  · cases h; exact hp.on rfl rfl rfl
  · cases h; exact hp.fail rfl
  · cases h; exact hp.on rfl rfl rfl
  · cases h; exact hp.fail rfl
  · cases h; exact ⟨ks, rfl, hp.1⟩
  · cases h; exact hp.on rfl rfl rfl
  · cases h; exact hp.fail rfl
  · cases h; exact hp.on rfl rfl rfl
  · cases h; exact hp.fail rfl
  · cases h; exact hp.on rfl rfl rfl
  · cases h; exact hp.fail rfl
  · cases h; exact hp.on rfl rfl rfl
  · cases h

theorem pumped_start (timeout : ℚ) : Pumped timeout ([] : List (Call ν α μ ε)) (.next .lookup : Blocked α ε) :=
  ⟨fun k hk => (by cases hk), rfl⟩

end Replies

/-! ## The calls made for a command -/

section Work

variable {ν α μ ε : Type*} {cfg : Config α} {s s' : State ν α μ ε} {a : Act ν α μ ε} {pre : List (Act ν α μ ε)}

/-- The call, when it is made for the command `i`. -/
def workOn (i : Nat) (s : State ν α μ ε) : Act ν α μ ε → Option (Call ν α μ ε)
  | .call k => match s.pc.held with
    | some c => if c.id = i then some k else none
    | none => none
  | _ => none

/-- The calls made for the command `i` along a run, in order. -/
def work (cfg : Config α) (as : List (Act ν α μ ε)) (i : Nat) : List (Call ν α μ ε) :=
  observed (step cfg) (workOn i) init as

theorem work_other {i : Nat} (hr : runs (step cfg) init pre = some s) (h : step cfg s a = some s')
    (hn : workOn i s a = none) : work cfg (pre ++ [a]) i = work cfg pre i := by
  unfold work
  rw [observed_concat hr h, hn, Option.toList_none, List.append_nil]

theorem work_call {c : Cmd (Command ν)} {k : Call ν α μ ε} (hr : runs (step cfg) init pre = some s)
    (h : step cfg s (.call k) = some s') (hc : s.pc.held = some c) (i : Nat) :
    work cfg (pre ++ [.call k]) i = work cfg pre i ++ if c.id = i then [k] else [] := by
  unfold work
  rw [observed_concat hr h]
  simp only [workOn, hc]
  split <;> rfl

/-- What the owner knows of the command in its hands. -/
def HeldOk (cfg : Config α) (pre : List (Act ν α μ ε)) (s : State ν α μ ε) : Prop :=
  match s.pc with
  | .blocking c timeout b => (∃ target, c.payload = .resolve target timeout) ∧
      Pumped timeout (work cfg pre c.id) (.next b : Blocked α ε)
  | .metrics c => c.payload = .dhtMetrics ∧ work cfg pre c.id = []
  | .resolve c r => Replies c.payload (work cfg pre c.id) (.ok r)
  | .reject c e => Replies c.payload (work cfg pre c.id) (.error e) ∨ (e = .loopClosed ∧ s.bridge.closed c.loop = true)
  | _ => True

/-- The commands taken from the queue, by their futures. -/
def State.taken (s : State ν α μ ε) : List Nat := (cmds s.bridge.queue.taken).map Cmd.id

/-- The callbacks scheduled so far, by their futures. -/
def State.answered (s : State ν α μ ε) : List Nat := s.bridge.scheduled.map Callback.id

structure Routed (cfg : Config α) (pre : List (Act ν α μ ε)) (s : State ν α μ ε) : Prop where
  inv : Inv s
  fresh : ∀ i, i ∉ s.taken → work cfg pre i = []
  held : HeldOk cfg pre s
  scheduled : ∀ x ∈ s.bridge.scheduled, ∃ c ∈ cmds s.bridge.queue.taken, c.id = x.id ∧
    Replies c.payload (work cfg pre x.id) x.outcome
  order : (s.answered ++ s.pc.held.toList.map Cmd.id).Sublist s.taken

theorem heldOk_of_none (h : s.pc.held = none) : HeldOk cfg pre s := by
  unfold HeldOk
  cases hp : s.pc <;> first
    | trivial
    | (rw [hp] at h; cases h)

theorem init_routed : Routed cfg [] (init : State ν α μ ε) where
  inv := init_inv
  fresh _ _ := rfl
  held := trivial
  scheduled := by simp [init, Bridge.init]
  order := List.Sublist.slnil

/-- A step that makes no call for a command, with the owner and what was taken and scheduled as before. -/
theorem Routed.frame (hr : runs (step cfg) init pre = some s) (hj : Routed cfg pre s) (h : step cfg s a = some s')
    (hn : ∀ i, workOn i s a = none) (hpc : s'.pc = s.pc)
    (htk : cmds s'.bridge.queue.taken = cmds s.bridge.queue.taken) (hsch : s'.bridge.scheduled = s.bridge.scheduled)
    (hcl : ∀ l, s.bridge.closed l = true → s'.bridge.closed l = true) : Routed cfg (pre ++ [a]) s' where
  inv := inv_step hj.inv (step_cases h)
  fresh i hi := by
    unfold State.taken at hi
    rw [htk] at hi
    rw [work_other hr h (hn i)]; exact hj.fresh i hi
  held := by
    have hheld := hj.held
    unfold HeldOk at hheld ⊢
    rw [hpc]
    cases hp : s.pc <;> rw [hp] at hheld
    case reject c e =>
      simp only [work_other hr h (hn c.id)]
      exact hheld.imp id fun hc => ⟨hc.1, hcl _ hc.2⟩
    all_goals first
      | trivial
      | (simp only [work_other hr h (hn _)]; exact hheld)
  scheduled x hx := by
    rw [hsch] at hx
    obtain ⟨c, hc, h1, h2⟩ := hj.scheduled x hx
    exact ⟨c, by rw [htk]; exact hc, h1, by rw [work_other hr h (hn _)]; exact h2⟩
  order := by
    unfold State.answered State.taken
    rw [hpc, htk, hsch]; exact hj.order

/-- The owner moves on without a command in its hands. -/
theorem Routed.move (hr : runs (step cfg) init pre = some s) (hj : Routed cfg pre s) (h : step cfg s a = some s')
    (hn : ∀ i, workOn i s a = none) (hheld : s'.pc.held = none) (hbr : s'.bridge = s.bridge) :
    Routed cfg (pre ++ [a]) s' where
  inv := inv_step hj.inv (step_cases h)
  fresh i hi := by
    unfold State.taken at hi
    rw [hbr] at hi
    rw [work_other hr h (hn i)]; exact hj.fresh i hi
  held := heldOk_of_none hheld
  scheduled x hx := by
    rw [hbr] at hx
    obtain ⟨c, hc, h1, h2⟩ := hj.scheduled x hx
    exact ⟨c, by rw [hbr]; exact hc, h1, by rw [work_other hr h (hn _)]; exact h2⟩
  order := by
    unfold State.answered State.taken
    rw [hheld, hbr, Option.toList_none, List.map_nil, List.append_nil]
    exact (List.sublist_append_left _ _).trans hj.order

/-- A call for the command in hand adds to its work alone. -/
theorem Routed.called {c : Cmd (Command ν)} {k : Call ν α μ ε} (hr : runs (step cfg) init pre = some s)
    (hj : Routed cfg pre s) (h : step cfg s (.call k) = some s') (hc : s.pc.held = some c) (hheld : s'.pc.held = some c)
    (hbr : s'.bridge = s.bridge) (hok : work cfg (pre ++ [.call k]) c.id = work cfg pre c.id ++ [k] →
      HeldOk cfg (pre ++ [.call k]) s') : Routed cfg (pre ++ [.call k]) s' := by
  have hwork := work_call hr h hc
  have hbridge : s.bridge.Ok (some c) := hc ▸ hj.inv.bridge
  refine ⟨inv_step hj.inv (step_cases h), fun i hi => ?_, hok (by rw [hwork, if_pos rfl]), fun x hx => ?_, ?_⟩
  · unfold State.taken at hi
    rw [hbr] at hi
    have hne : c.id ≠ i := fun he => hi (List.mem_map.2 ⟨c, hbridge.heldTaken c rfl, he⟩)
    rw [hwork, if_neg hne, List.append_nil]; exact hj.fresh i hi
  · rw [hbr] at hx
    have hne : c.id ≠ x.id := fun he => hbridge.held_not_answered ⟨x, hx, he.symm⟩
    obtain ⟨d, hd, h1, h2⟩ := hj.scheduled x hx
    refine ⟨d, by rw [hbr]; exact hd, h1, ?_⟩
    rw [hwork, if_neg hne, List.append_nil]; exact h2
  · have horder := hj.order
    rw [hc] at horder
    unfold State.answered State.taken
    rw [hheld, hbr]; exact horder

/-- The owner takes a command that nobody worked on before. -/
theorem Routed.take {c : Cmd (Command ν)} {b : Bridge (Command ν) (Exc ε) (Answer α μ)}
    (hr : runs (step cfg) init pre = some s) (hj : Routed cfg pre s) (hp : s.pc = .service)
    (hb : s.bridge.get = some (.cmd c, b)) (h : step cfg s .owner = some { s with pc := dispatch c, bridge := b }) :
    Routed cfg (pre ++ [.owner]) { s with pc := dispatch c, bridge := b } := by
  have htk : cmds b.queue.taken = cmds s.bridge.queue.taken ++ [c] := Bridge.get_cmd_taken hb
  have hnew := Bridge.get_cmd_new hj.inv.bridge hb
  have hsch : b.scheduled = s.bridge.scheduled := by
    obtain ⟨q, -, rfl⟩ := Bridge.get_some hb; rfl
  have hwork : ∀ i, work cfg (pre ++ [.owner]) i = work cfg pre i := fun i => work_other hr h rfl
  have hfresh : work cfg pre c.id = [] := by
    refine hj.fresh c.id fun hmem => ?_
    obtain ⟨d, hd, he⟩ := List.mem_map.1 hmem
    exact hnew d hd he
  refine ⟨inv_step hj.inv (step_cases h), fun i hi => ?_, ?_, fun x hx => ?_, ?_⟩
  · unfold State.taken at hi
    simp only [htk, List.map_append, List.mem_append, not_or] at hi
    rw [hwork]; exact hj.fresh i hi.1
  · unfold HeldOk dispatch
    rcases hpay : c.payload with ⟨target, timeout⟩ | _
    · simp only [hwork, hfresh, hpay]
      exact ⟨⟨target, rfl⟩, pumped_start timeout⟩
    · simp only [hwork, hfresh, hpay, and_self]
  · simp only [hsch] at hx
    obtain ⟨d, hd, h1, h2⟩ := hj.scheduled x hx
    refine ⟨d, ?_, h1, by rw [hwork]; exact h2⟩
    simp only [htk]
    exact List.mem_append_left _ hd
  · have horder := hj.order
    rw [hp] at horder
    simp only [Pc.held, Option.toList_none, List.map_nil, List.append_nil] at horder
    unfold State.answered State.taken at *
    simp only [dispatch_held, htk, hsch, Option.toList_some, List.map_append]
    exact horder.append (List.Sublist.refl _)

/-- The owner schedules the answer to the command in its hands. -/
theorem Routed.answer {c : Cmd (Command ν)} {o : Except (Exc ε) (Answer α μ)}
    {b : Bridge (Command ν) (Exc ε) (Answer α μ)} (hr : runs (step cfg) init pre = some s) (hj : Routed cfg pre s)
    (hc : s.pc.held = some c) (hb : s.bridge.callSoon c o = some b)
    (h : step cfg s .owner = some { s with pc := .service, bridge := b })
    (hok : Replies c.payload (work cfg pre c.id) o) :
    Routed cfg (pre ++ [.owner]) { s with pc := .service, bridge := b } := by
  obtain ⟨hq, -, hsch⟩ := Bridge.callSoon_taken hb
  have hbridge : s.bridge.Ok (some c) := hc ▸ hj.inv.bridge
  have hwork : ∀ i, work cfg (pre ++ [.owner]) i = work cfg pre i := fun i => work_other hr h rfl
  refine ⟨inv_step hj.inv (step_cases h), fun i hi => ?_, trivial, fun x hx => ?_, ?_⟩
  · unfold State.taken at hi
    simp only [hq] at hi
    rw [hwork]; exact hj.fresh i hi
  · simp only [hsch, List.mem_append, List.mem_singleton] at hx
    simp only [hq, hwork]
    rcases hx with hx | rfl
    · exact hj.scheduled x hx
    · exact ⟨c, hbridge.heldTaken c rfl, rfl, hok⟩
  · have horder := hj.order
    rw [hc] at horder
    unfold State.answered State.taken at *
    simp only [hsch, hq, List.map_append, List.map_cons, List.map_nil, Pc.held, Option.toList_none, List.append_nil]
    exact horder

/-- The loop of the command in hand is closed: its answer gives way to that exception. -/
theorem Routed.closed {c : Cmd (Command ν)} (hr : runs (step cfg) init pre = some s) (hj : Routed cfg pre s)
    (hc : s.pc.held = some c) (hcl : s.bridge.closed c.loop = true)
    (h : step cfg s .owner = some { s with pc := .reject c .loopClosed }) :
    Routed cfg (pre ++ [.owner]) { s with pc := .reject c .loopClosed } := by
  have hwork : ∀ i, work cfg (pre ++ [.owner]) i = work cfg pre i := fun i => work_other hr h rfl
  refine ⟨inv_step hj.inv (step_cases h), fun i hi => ?_, .inr ⟨rfl, hcl⟩, fun x hx => ?_, ?_⟩
  · rw [hwork]; exact hj.fresh i hi
  · obtain ⟨d, hd, h1, h2⟩ := hj.scheduled x hx
    exact ⟨d, hd, h1, by rw [hwork]; exact h2⟩
  · have horder := hj.order
    rw [hc] at horder; exact horder

/-- A call made without a command in hand is nobody's work. -/
theorem workOn_none {k : Call ν α μ ε} (h : s.pc.held = none) (i : Nat) : workOn i s (.call k) = none := by
  simp only [workOn, h]

theorem routed_call {k : Call ν α μ ε} {p : Pc ν α μ ε} (hr : runs (step cfg) init pre = some s) (hj : Routed cfg pre s)
    (hn : Next cfg s.lastAnnounce s.pc k p) (h : step cfg s (.call k) = some { s.note k with pc := p }) :
    Routed cfg (pre ++ [.call k]) { s.note k with pc := p } := by
  have hheld : p.held = s.pc.held := (next_phase hn).1
  cases hc : s.pc.held with
  | none => exact hj.move hr h (workOn_none hc) (by rw [← hc]; exact hheld) (note_bridge k)
  | some c =>
    refine hj.called hr h hc (by rw [← hc]; exact hheld) (note_bridge k) fun hwork => ?_
    have hok := hj.held
    unfold HeldOk at hok ⊢
    generalize hp : s.pc = pc at hn hc hok
    cases hn with
    | @blocked d timeout b b' k hb =>
      cases hc
      obtain ⟨hpay, hpump⟩ := hok
      simp only [hwork]
      exact ⟨hpay, pumped_next hpump hb⟩
    | @resolved d timeout b k x hb =>
      cases hc
      obtain ⟨⟨target, hpay⟩, hpump⟩ := hok
      obtain ⟨ks, hks, hm⟩ := pumped_next hpump hb
      simp only [hwork, hks, hpay]
      exact .found hm
    | @unresolved d timeout b k e hb =>
      cases hc
      obtain ⟨⟨target, hpay⟩, hpump⟩ := hok
      simp only [hwork, hpay]
      rcases pumped_next hpump hb with ⟨ks, l, x, hks, hm, hx, rfl⟩ | ⟨hm, rfl, t₀, ts, t, hread, ht⟩
      · rw [hks]; exact .inl (.failed hm hx)
      · exact .inl (.timedOut hm hread ht)
    | metrics =>
      cases hc
      obtain ⟨hpay, hnil⟩ := hok
      simp only [hwork, hnil, hpay]
      exact .metrics
    | metricsFail =>
      cases hc
      obtain ⟨hpay, hnil⟩ := hok
      simp only [hwork, hnil, hpay]
      exact .inl .metricsFailed
    | fail hf => rcases fails_pc hf with rfl | rfl | rfl | ⟨now, rfl⟩ | rfl <;> cases hc
    | _ => cases hc

theorem routed_step (hr : runs (step cfg) init pre = some s) (hj : Routed cfg pre s) (h : step cfg s a = some s') :
    Routed cfg (pre ++ [a]) s' := by
  cases step_cases h with
  | call hn => exact routed_call hr hj hn h
  | giveUp hp | report hp | publish hp _ | publishLate hp _ | abandon hp | check hp _ | serviced hp _ | dhtClose hp
  | serverClose hp => exact hj.move hr h (fun _ => rfl) rfl rfl
  | checkStop hp _ | rejectClosed hp _ => exact hj.move hr h (fun _ => rfl) closing_held rfl
  | take hp hb => exact hj.take hr hp hb h
  | @takeStop b hp hb =>
    -- the sentinel is no command
    have hsame : b.scheduled = s.bridge.scheduled ∧ b.closed = s.bridge.closed := by
      obtain ⟨q, -, rfl⟩ := Bridge.get_some hb; exact ⟨rfl, rfl⟩
    refine hj.frame hr h (fun _ => rfl) rfl (Bridge.get_stop_taken hb) hsame.1 fun l hc => ?_
    simp only [hsame.2]; exact hc
  | @resolve c r b hp hb =>
    have hok := hj.held
    unfold HeldOk at hok
    rw [hp] at hok
    exact hj.answer hr (by rw [hp]; rfl) hb h hok
  | @resolveClosed c r hp hcl =>
    exact hj.closed hr (by rw [hp]; rfl) hcl h
  | @reject c e b hp hb =>
    have hok := hj.held
    unfold HeldOk at hok
    rw [hp] at hok
    refine hj.answer hr (by rw [hp]; rfl) hb h (hok.resolve_right ?_)
    -- the callback was scheduled, so the loop is open
    rintro ⟨-, hc⟩
    rw [(Bridge.callSoon_some hb).1] at hc; cases hc
  | resume | cancelServe | cancelCommand | shutdown | shutdownJoin | shutdownCancel =>
    exact hj.frame hr h (fun _ => rfl) rfl rfl rfl fun _ hc => hc
  | put _ _ hb =>
    have hf := Bridge.put_frame hb
    exact hj.frame hr h (fun _ => rfl) rfl (by simp only [hf, Fifo.put_taken]) (by simp only [hf]) fun _ hc => by
      simp only [hf]; exact hc
  | runLoop hl =>
    obtain ⟨hq, hsch, hcl⟩ := Bridge.runLoop_frame hl
    exact hj.frame hr h (fun _ => rfl) rfl (by simp only [hq]) hsch fun _ hc => by simp only [hcl]; exact hc
  | closeLoop => exact hj.frame hr h (fun _ => rfl) rfl rfl rfl fun _ hc => Bridge.closeLoop_closed _ hc

/-- On every run the answers go out in the order in which the commands were put, one at most to each,
and each answer is what the calls made for its own command give; no answer is the exception of a closed
loop. -/
theorem answers_routed {as : List (Act ν α μ ε)} (h : runs (step cfg) init as = some s) :
    s.answered.Sublist (s.bridge.sent.map Cmd.id) ∧ (s.bridge.sent.map Cmd.id).Nodup ∧
      ∀ x ∈ s.bridge.scheduled, ∃ c ∈ s.bridge.sent, c.id = x.id ∧ Replies c.payload (work cfg as c.id) x.outcome := by
  have hj : Routed cfg as s := runs_history init_routed (fun _ _ _ _ hr hj h => routed_step hr hj h) h
  refine ⟨?_, hj.inv.bridge.ids, fun x hx => ?_⟩
  · have htaken : s.answered.Sublist s.taken := (List.sublist_append_left _ _).trans hj.order
    exact htaken.trans (s.bridge.taken_prefix.map _).sublist
  · obtain ⟨c, hc, h1, h2⟩ := hj.scheduled x hx
    exact ⟨c, s.bridge.taken_sent hc, h1, by rw [h1]; exact h2⟩

/-- A lookup that hits at once and a scrape, put in turn while the owner waits. -/
def lookupAndScrape : List (Act Nat Nat Nat Unit) :=
  startUp ++ [.put ⟨0, 0, .resolve 9 5⟩, .put ⟨1, 0, .dhtMetrics⟩, .owner, .owner, .call (.lookupResult (.ok (some 1))),
    .owner, .owner, .call (.metrics (.ok 8)), .owner]

theorem answers_routed_two : ∃ s, runs (step ⟨true, none⟩) init lookupAndScrape = some s ∧ s.answered = [0, 1] ∧
    s.answered.Sublist (s.bridge.sent.map Cmd.id) ∧
    Replies (.resolve 9 5) (work ⟨true, none⟩ lookupAndScrape 0) (.ok (.address 1)) ∧
    Replies .dhtMetrics (work ⟨true, none⟩ lookupAndScrape 1) (.ok (.metrics 8)) := by
  have h : runs (step ⟨true, none⟩) init lookupAndScrape = some _ := rfl
  obtain ⟨horder, -, hreplies⟩ := answers_routed h
  refine ⟨_, h, rfl, horder, ?_, ?_⟩
  · obtain ⟨c, hc, hid, hreply⟩ := hreplies _ (List.mem_cons_self ..)
    rcases List.mem_cons.1 hc with rfl | hc
    · exact hreply
    · cases List.mem_singleton.1 hc
      cases hid
  · obtain ⟨c, hc, hid, hreply⟩ := hreplies _ (List.mem_cons_of_mem _ (List.mem_cons_self ..))
    rcases List.mem_cons.1 hc with rfl | hc
    · cases hid
    · cases List.mem_singleton.1 hc
      exact hreply

end Work

end Nwep.Runtime.Serve
