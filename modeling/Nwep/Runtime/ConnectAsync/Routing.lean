/-
Order and routing of the managed client's requests: on every run the commands passed to
`client.send` are a prefix of the commands put, each passed once; every future is completed at
most once, with what `client.send` gave for its own command, or with `NetworkClosed` when its
command was never passed; and no callback finds its future completed.

The invariant ties the owner's statement, the queue, the command in its hands and the scheduled
callbacks together; the asyncio side only ever changes what it does not read.
-/
import Nwep.Runtime.ConnectAsync

namespace Nwep.Runtime.ConnectAsync

open Lib

variable {ε ρ : Type*} {s s' : State ε ρ}

/-! ## Phases of the owner thread -/

/-- Before the result is published. -/
def Pc.starting : Pc ε ρ → Bool
  | .connect | .report _ | .publish | .abandon => true
  | _ => false

/-- Inside `while True`. -/
def Pc.serving : Pc ε ρ → Bool
  | .get | .tick | .send _ | .resolve _ _ | .reject _ _ => true
  | _ => false

/-- In the `finally` block, or past it. -/
def Pc.ending : Pc ε ρ → Bool
  | .drain | .drainReject _ | .close | .finished => true
  | _ => false

/-- The command whose `client.send` is in progress. -/
def Pc.inCall : Pc ε ρ → List (Cmd Request)
  | .send c => [c]
  | _ => []

/-! ## The invariant -/

/-- The outcome `o` is the one the future `i` should get: what `client.send` gave for the command
`i`, or `NetworkClosed` when that command was not passed to it. -/
def Truthful (s : State ε ρ) (i : Nat) (o : Except (Exc ε) ρ) : Prop :=
  (i, o) ∈ s.outcomes ∨
    ((∀ c ∈ s.executed, c.id ≠ i) ∧ o = .error (.networkClosed "client is closing"))

/-- What the owner knows of the command in its hands. -/
def HeldOk (s : State ε ρ) : Prop :=
  match s.pc with
  | .resolve c r => (c.id, .ok r) ∈ s.outcomes
  | .reject c e => (c.id, .error e) ∈ s.outcomes ∨ (e = .loopClosed ∧ s.bridge.closed c.loop = true)
  | .drainReject c => ∀ d ∈ s.executed, d.id ≠ c.id
  | _ => True

structure Inv (s : State ε ρ) : Prop where
  handoff : s.handoff.Ok
  bridge : s.bridge.Ok s.pc.held
  quiet : (∀ v, s.handoff.task ≠ .returned v) → s.bridge.sent = [] ∧ s.accepted = []
  starting : s.pc.starting = true → ¬ s.handoff.Published
  serving : s.pc.serving = true → s.handoff.Published
  execTaken : s.executed <+: cmds s.bridge.queue.taken
  execAll : s.pc.ending = false → s.executed = cmds s.bridge.queue.taken
  calls : s.outcomes.map Prod.fst ++ s.pc.inCall.map Cmd.id = s.executed.map Cmd.id
  held : HeldOk s
  answers : ∀ x ∈ s.bridge.scheduled, Truthful s x.id x.outcome

theorem init_inv : Inv (init : State ε ρ) where
  handoff := Handoff.init_ok
  bridge := Bridge.init_ok
  quiet _ := ⟨rfl, rfl⟩
  starting _ := by rintro ⟨a, ha⟩; cases ha
  serving h := by cases h
  execTaken := List.prefix_refl _
  execAll _ := rfl
  calls := rfl
  held := trivial
  answers := by simp [init, Bridge.init]

/-- A step of the asyncio side: the owner's statement and its logs stay, the bridge keeps what was
taken and scheduled, closed loops stay closed and a published result stays published. -/
theorem Inv.frame (hi : Inv s) (hpc : s'.pc = s.pc) (hex : s'.executed = s.executed)
    (hout : s'.outcomes = s.outcomes) (htk : s'.bridge.queue.taken = s.bridge.queue.taken)
    (hsch : s'.bridge.scheduled = s.bridge.scheduled)
    (hcl : ∀ l, s.bridge.closed l = true → s'.bridge.closed l = true) (hho : s'.handoff.Ok)
    (hpub : s'.handoff.Published ↔ s.handoff.Published) (hbr : s'.bridge.Ok s.pc.held)
    (hq : (∀ v, s'.handoff.task ≠ .returned v) → s'.bridge.sent = [] ∧ s'.accepted = []) : Inv s' where
  handoff := hho
  bridge := by rw [hpc]; exact hbr
  quiet := hq
  starting h hp := hi.starting (by rwa [hpc] at h) (hpub.1 hp)
  serving h := hpub.2 (hi.serving (by rwa [hpc] at h))
  execTaken := by rw [hex, htk]; exact hi.execTaken
  execAll h := by rw [hex, htk]; exact hi.execAll (by rwa [hpc] at h)
  calls := by rw [hout, hpc, hex]; exact hi.calls
  held := by
    have := hi.held
    unfold HeldOk at this ⊢
    rw [hpc, hout, hex]
    cases hp : s.pc with
    | reject c e =>
      rw [hp] at this
      exact this.imp id (fun h => ⟨h.1, hcl _ h.2⟩)
    | _ => rw [hp] at this; exact this
  answers x hx := by
    have := hi.answers x (by rwa [hsch] at hx)
    unfold Truthful at this ⊢
    rw [hout, hex]; exact this

/-- The owner moves on with the same command in its hands, the bridge and the logs as they were. -/
theorem Inv.move {p p' : Pc ε ρ} {k : Handle} (hi : Inv s) (hp : s.pc = p) (hheld : p'.held = p.held)
    (hstart : p'.starting = true → p.starting = true) (hserv : p'.serving = true → p.serving = true)
    (hend : p'.ending = false → p.ending = false)
    (hcall : p'.inCall = p.inCall) (hok : HeldOk { s with pc := p' }) : Inv { s with pc := p', client := k } := by
  subst hp
  exact {
    handoff := hi.handoff
    bridge := by simp only [hheld]; exact hi.bridge
    quiet := hi.quiet
    starting := fun h => hi.starting (hstart h)
    serving := fun h => hi.serving (hserv h)
    execTaken := hi.execTaken
    execAll := fun h => hi.execAll (hend h)
    calls := by simp only [hcall]; exact hi.calls
    held := hok
    answers := hi.answers }

/-- The owner settles `ready`, or finds it settled. -/
theorem Inv.settle {p p' : Pc ε ρ} {r : Ready Unit (Exc ε)} (hi : Inv s) (hp : s.pc = p) (hheld : p'.held = none)
    (hold : p.held = none) (hend : p.ending = false) (hstart : p'.starting = false) (hcall : p'.inCall = [])
    (hcall' : p.inCall = [])
    (hho : Handoff.Ok ⟨r, s.handoff.task⟩)
    (hserv : p'.serving = true → Handoff.Published ⟨r, s.handoff.task⟩) (hok : HeldOk { s with pc := p' }) :
    Inv { s with pc := p', handoff := { s.handoff with ready := r } } := by
  subst hp
  exact {
    handoff := hho
    bridge := by simp only [hheld]; rw [← hold]; exact hi.bridge
    quiet := hi.quiet
    starting := fun h => by simp only [hstart, Bool.false_eq_true] at h
    serving := hserv
    execTaken := hi.execTaken
    execAll := fun _ => hi.execAll hend
    calls := by have := hi.calls; rw [hcall'] at this; simp only [hcall]; exact this
    held := hok
    answers := hi.answers }

/-- The owner gives up the command in its hands, whose loop is closed. -/
theorem Inv.drop {p' : Pc ε ρ} {c : Cmd Request} (hi : Inv s) (hheld : s.pc.held = some c)
    (hc : s.bridge.closed c.loop = true) (hnone : p'.held = none) (hserv : p'.serving = false)
    (hend : p'.ending = true) (hcall : s.pc.inCall = []) (hcall' : p'.inCall = []) : Inv { s with pc := p' } where
  handoff := hi.handoff
  bridge := by simp only [hnone]; exact Bridge.drop_ok (hheld ▸ hi.bridge) hc
  quiet := hi.quiet
  starting h := by cases p' <;> cases h <;> cases hend
  serving h := by simp only [hserv, Bool.false_eq_true] at h
  execTaken := hi.execTaken
  execAll h := by simp only [hend, Bool.true_eq_false] at h
  calls := by have := hi.calls; rw [hcall] at this; simp only [hcall']; exact this
  held := by unfold HeldOk; cases p' <;> trivial
  answers := hi.answers

/-- The owner schedules the callback of the command in its hands, and holds none after it. -/
theorem Inv.answer {c : Cmd Request} {o : Except (Exc ε) ρ} {b : Bridge Request (Exc ε) ρ} {pc' : Pc ε ρ}
    (hi : Inv s) (hheld : s.pc.held = some c) (hb : s.bridge.callSoon c o = some b)
    (ho : Truthful s c.id o) (hnone : pc'.held = none) (hstart : pc'.starting = false)
    (hserv : pc'.serving = true → s.pc.serving = true)
    (hend : pc'.ending = false → s.pc.ending = false) (hcall : s.pc.inCall = []) (hcall' : pc'.inCall = []) :
    Inv { s with pc := pc', bridge := b } := by
  obtain ⟨hq, -, hsch⟩ := Bridge.callSoon_taken hb
  have hok := Bridge.callSoon_ok (hheld ▸ hi.bridge) hb
  exact {
    handoff := hi.handoff
    bridge := by simp only [hnone]; exact hok
    quiet := fun h => by simp only [Bridge.sent, hq]; exact hi.quiet h
    starting := fun h => by simp only [hstart, Bool.false_eq_true] at h
    serving := fun h => hi.serving (hserv h)
    execTaken := by simp only [hq]; exact hi.execTaken
    execAll := fun h => by simp only [hq]; exact hi.execAll (hend h)
    calls := by have := hi.calls; rw [hcall] at this; simp only [hcall']; exact this
    held := by unfold HeldOk; cases pc' <;> trivial
    answers := by
      intro x hx
      simp only [hsch, List.mem_append, List.mem_singleton] at hx
      rcases hx with hx | rfl
      · exact hi.answers x hx
      · exact ho }

/-- The owner takes the stop sentinel, or finds the queue in a state that ends a loop. -/
theorem Inv.takeStop {b : Bridge Request (Exc ε) ρ} (hi : Inv s) (hheld : s.pc.held = none)
    (hcall : s.pc.inCall = []) (hb : s.bridge.get = some (.stop, b)) : Inv { s with pc := .drain, bridge := b } := by
  have htk := Bridge.get_stop_taken hb
  have hsent := Bridge.get_sent hb
  have hok := Bridge.get_stop_ok (hheld ▸ hi.bridge) hb
  obtain ⟨q, -, rfl⟩ := Bridge.get_some hb
  exact {
    handoff := hi.handoff
    bridge := hok
    quiet := fun h => by rw [hsent]; exact hi.quiet h
    starting := fun h => by cases h
    serving := fun h => by cases h
    execTaken := by simp only [htk]; exact hi.execTaken
    execAll := fun h => by cases h
    calls := by have := hi.calls; rw [hcall] at this; exact this
    held := trivial
    answers := hi.answers }

/-- The owner takes a command to send it. -/
theorem Inv.take {c : Cmd Request} {b : Bridge Request (Exc ε) ρ} (hi : Inv s) (hp : s.pc = .get)
    (hb : s.bridge.get = some (.cmd c, b)) :
    Inv { s with pc := .send c, bridge := b, executed := s.executed ++ [c] } := by
  have htk := Bridge.get_cmd_taken hb
  have hsent := Bridge.get_sent hb
  have hnew := Bridge.get_cmd_new hi.bridge hb
  have hok := Bridge.get_cmd_ok (by simpa [hp, Pc.held] using hi.bridge) hb
  have hexec := hi.execAll (by simp [hp, Pc.ending])
  obtain ⟨q, -, rfl⟩ := Bridge.get_some hb
  refine {
    handoff := hi.handoff
    bridge := hok
    quiet := fun h => by rw [hsent]; exact hi.quiet h
    starting := fun h => by cases h
    serving := fun _ => hi.serving (by simp [hp, Pc.serving])
    execTaken := by simp only [htk, hexec]; exact List.prefix_refl _
    execAll := fun _ => by simp only [htk, hexec]
    calls := by have := hi.calls; simp only [hp, Pc.inCall, List.map_nil, List.append_nil] at this; simp [Pc.inCall, this]
    held := trivial
    answers := fun x hx => ?_ }
  -- a future rejected unsent is not that of the new command: its callback is there already
  refine (hi.answers x hx).imp id (fun h => ⟨fun d hd => ?_, h.2⟩)
  rcases List.mem_append.1 hd with hd | hd
  · exact h.1 d hd
  · rw [List.mem_singleton.1 hd]
    obtain ⟨d', hd', h1, -, -⟩ := hi.bridge.schedFrom x hx
    exact fun he => hnew d' hd' (h1.trans he.symm)

/-- The drain takes a command that was not sent. -/
theorem Inv.drain {c : Cmd Request} {b : Bridge Request (Exc ε) ρ} (hi : Inv s) (hp : s.pc = .drain)
    (hb : s.bridge.get = some (.cmd c, b)) : Inv { s with pc := .drainReject c, bridge := b } := by
  have htk := Bridge.get_cmd_taken hb
  have hsent := Bridge.get_sent hb
  have hnew := Bridge.get_cmd_new hi.bridge hb
  have hok := Bridge.get_cmd_ok (by simpa [hp, Pc.held] using hi.bridge) hb
  obtain ⟨q, -, rfl⟩ := Bridge.get_some hb
  exact {
    handoff := hi.handoff
    bridge := hok
    quiet := fun h => by rw [hsent]; exact hi.quiet h
    starting := fun h => by cases h
    serving := fun h => by cases h
    execTaken := by simp only [htk]; exact hi.execTaken.trans (List.prefix_append _ _)
    execAll := fun h => by cases h
    calls := by have := hi.calls; rw [hp] at this; exact this
    held := fun d hd => hnew d (hi.execTaken.subset hd)
    answers := hi.answers }

/-- `client.send` returned or raised. -/
theorem Inv.sent {c : Cmd Request} {o : Except (Exc ε) ρ} {pc' : Pc ε ρ} (hi : Inv s) (hp : s.pc = .send c)
    (hheld : pc'.held = some c) (hcall : pc'.inCall = [])
    (hok : HeldOk { s with pc := pc', outcomes := s.outcomes ++ [(c.id, o)] }) :
    Inv { s with pc := pc', outcomes := s.outcomes ++ [(c.id, o)] } where
  handoff := hi.handoff
  bridge := by have := hi.bridge; rw [hp] at this; simp only [hheld]; exact this
  quiet := hi.quiet
  starting h := by cases pc' <;> cases h <;> cases hheld
  serving _ := hi.serving (by simp [hp, Pc.serving])
  execTaken := hi.execTaken
  execAll _ := hi.execAll (by simp [hp, Pc.ending])
  calls := by have := hi.calls; simp only [hp, Pc.inCall] at this; simp [hcall, ← this]
  held := hok
  answers x hx := (hi.answers x hx).imp (List.mem_append_left _) id

/-! ## Every step keeps the invariant -/

theorem inv_step {a : Act ε ρ} (hi : Inv s) (h : Step s a s') : Inv s' := by
  cases h with
  | connectOk hp | connectFail hp =>
    exact hi.move hp rfl (by simp [Pc.starting]) (by simp [Pc.serving]) (fun _ => rfl) rfl trivial
  | @report e hp =>
    exact hi.settle hp rfl rfl rfl rfl rfl rfl (Handoff.report_ok hi.handoff e) (by simp [Pc.serving]) trivial
  | publish hp hr =>
    exact hi.settle hp rfl rfl rfl rfl rfl rfl (Handoff.settle_ok hi.handoff hr (by simp))
      (fun _ => ⟨(), rfl⟩) trivial
  | publishLate hp _ => exact hi.move hp rfl (by simp [Pc.starting]) (by simp [Pc.serving]) (fun _ => rfl) rfl trivial
  | abandon hp => exact hi.move hp rfl (by simp [Pc.starting]) (by simp [Pc.serving]) (fun _ => rfl) rfl trivial
  | take hp hb => exact hi.take hp hb
  | takeStop hp hb => exact hi.takeStop (by simp [hp, Pc.held]) (by simp [hp, Pc.inCall]) hb
  | timeout hp _ | tickOk hp => exact hi.move hp rfl (by simp [Pc.starting]) (fun _ => rfl) (fun _ => rfl) rfl trivial
  | tickFail hp => exact hi.move hp rfl (by simp [Pc.starting]) (by simp [Pc.serving]) (fun _ => rfl) rfl trivial
  | sendOk hp | sendFail hp => exact hi.sent hp rfl rfl (by simp [HeldOk])
  | resolve hp hb =>
    have hh := hi.held
    simp only [HeldOk, hp] at hh
    exact hi.answer (by simp [hp, Pc.held]) hb (.inl hh) rfl rfl (by simp [hp, Pc.serving]) (by simp [hp, Pc.ending])
      (by simp [hp, Pc.inCall]) rfl
  | resolveClosed hp hc =>
    exact hi.move hp rfl (by simp [Pc.starting]) (fun _ => rfl) (fun _ => rfl) rfl (.inr ⟨rfl, hc⟩)
  | reject hp hb =>
    have hh := hi.held
    simp only [HeldOk, hp] at hh
    refine hi.answer (by simp [hp, Pc.held]) hb (.inl ?_) rfl rfl (by simp [hp, Pc.serving]) (by simp [hp, Pc.ending])
      (by simp [hp, Pc.inCall]) rfl
    -- the loop is open, so the exception is that of `client.send`
    rcases hh with hh | ⟨-, hc⟩
    · exact hh
    · rw [(Bridge.callSoon_some hb).1] at hc; cases hc
  | rejectClosed hp hc => exact hi.drop (by simp [hp, Pc.held]) hc rfl rfl rfl (by simp [hp, Pc.inCall]) rfl
  | drain hp hb => exact hi.drain hp hb
  | drainStop hp hb =>
    have := hi.takeStop (by simp [hp, Pc.held]) (by simp [hp, Pc.inCall]) hb
    rw [← hp] at this; exact this
  | drainEmpty hp _ =>
    exact hi.move hp rfl (by simp [Pc.starting]) (by simp [Pc.serving]) (by simp [Pc.ending]) rfl trivial
  | drainReject hp hb =>
    have hh := hi.held
    simp only [HeldOk, hp] at hh
    exact hi.answer (by simp [hp, Pc.held]) hb (.inr ⟨hh, rfl⟩) rfl rfl (by simp [Pc.serving]) (by simp [Pc.ending])
      (by simp [hp, Pc.inCall]) rfl
  | drainClosed hp hc => exact hi.drop (by simp [hp, Pc.held]) hc rfl rfl rfl (by simp [hp, Pc.inCall]) rfl
  | close hp => exact hi.move hp rfl (by simp [Pc.starting]) (by simp [Pc.serving]) (by simp [Pc.ending]) rfl trivial
  | resume hr =>
    have hpub := Handoff.resume_published hr
    exact hi.frame rfl rfl rfl rfl rfl (fun _ h => h) (Handoff.resume_ok hr) hpub hi.bridge
      (fun _ => hi.quiet (by simp [Handoff.resume_waiting hr]))
  | cancelConnect hc =>
    have hpub := Handoff.cancelTask_published hc
    exact hi.frame rfl rfl rfl rfl rfl (fun _ h => h) (Handoff.cancelTask_ok hc) hpub hi.bridge
      (fun _ => hi.quiet (by simp [(Handoff.cancelTask_some hc).1]))
  | check ht _ =>
    exact hi.frame rfl rfl rfl rfl rfl (fun _ h => h) hi.handoff Iff.rfl hi.bridge
      (fun h => absurd ht (h ()))
  | checkClosed => exact hi
  | put hm hb =>
    have hf := Bridge.put_frame hb
    refine hi.frame rfl rfl rfl (by simp [hf]) (by simp [hf]) (fun l h => by simpa [hf] using h) hi.handoff Iff.rfl
      (Bridge.put_ok hi.bridge hb) (fun h => ?_)
    rw [(hi.quiet h).2] at hm; cases hm
  | cancelSend =>
    exact hi.frame rfl rfl rfl rfl rfl (fun _ h => h) hi.handoff Iff.rfl (Bridge.cancel_ok hi.bridge _) hi.quiet
  | aclose | acloseAgain | acloseJoin | acloseCancel =>
    exact hi.frame rfl rfl rfl rfl rfl (fun _ h => h) hi.handoff Iff.rfl hi.bridge hi.quiet
  | acloseStop =>
    exact hi.frame rfl rfl rfl rfl rfl (fun _ h => h) hi.handoff Iff.rfl (Bridge.putStop_ok hi.bridge)
      (fun h => by simp only [Bridge.putStop_sent]; exact hi.quiet h)
  | runLoop hr =>
    obtain ⟨hq, hsch, hcl⟩ := Bridge.runLoop_frame hr
    exact hi.frame rfl rfl rfl (by simp only [hq]) hsch (fun l h => by simp only [hcl]; exact h) hi.handoff Iff.rfl
      (Bridge.runLoop_ok hi.bridge hr) (fun h => by simp only [Bridge.sent, hq]; exact hi.quiet h)
  | closeLoop =>
    exact hi.frame rfl rfl rfl rfl rfl (fun l h => Bridge.closeLoop_closed _ h) hi.handoff Iff.rfl
      (Bridge.closeLoop_ok hi.bridge _) hi.quiet

theorem runs_inv {as : List (Act ε ρ)} (h : runs step init as = some s) : Inv s :=
  Lib.runs_inv (fun _ _ _ hi h => inv_step hi (step_cases h)) as init_inv h

/-- The command that the step puts. -/
def Act.puts : Act ε ρ → List (Cmd Request)
  | .put c => [c]
  | _ => []

theorem sent_step {a : Act ε ρ} (h : Step s a s') : s'.bridge.sent = s.bridge.sent ++ a.puts := by
  cases h with
  | put _ hb => exact (Bridge.put_sent hb).1
  | take _ hb | takeStop _ hb | drain _ hb | drainStop _ hb => exact (Bridge.get_sent hb).trans (List.append_nil _).symm
  | resolve _ hb | reject _ hb | drainReject _ hb =>
    obtain ⟨-, rfl⟩ := Bridge.callSoon_some hb
    exact (List.append_nil _).symm
  | acloseStop => exact (Bridge.putStop_sent _).trans (List.append_nil _).symm
  | runLoop hr =>
    unfold Bridge.sent
    rw [(Bridge.runLoop_frame hr).1]
    exact (List.append_nil _).symm
  | _ => exact (List.append_nil _).symm

/-! ## Order and routing -/

/-- The requests passed to `client.send` are a prefix of the commands in the order of their puts,
none twice; every future is completed at most once, for a command that was put and with the
outcome that is its own; and no callback finds its future completed. -/
theorem requests_routed {as : List (Act ε ρ)} (h : runs step init as = some s) :
    s.executed <+: s.bridge.sent ∧ (s.executed.map Cmd.id).Nodup ∧
      s.outcomes.map Prod.fst <+: s.executed.map Cmd.id ∧
      (s.bridge.completed.map Prod.fst).Nodup ∧
      (∀ i o, (i, o) ∈ s.bridge.completed → (∃ c ∈ s.bridge.sent, c.id = i) ∧ Truthful s i o) ∧
      (∀ i o, s.bridge.futs i = .done o ↔ (i, o) ∈ s.bridge.completed) ∧
      s.bridge.fault = false := by
  have hi := runs_inv h
  have hex := hi.execTaken.trans s.bridge.taken_prefix
  refine ⟨hex, hi.bridge.ids.sublist (hex.map _).sublist, ⟨_, hi.calls⟩, hi.bridge.completedIds, fun i o ho => ?_,
    fun i o => (hi.bridge.completed i o).symm, hi.bridge.noFault⟩
  -- a completed future had a callback, and that came from a command taken from the queue
  obtain ⟨x, hx, rfl, rfl⟩ := hi.bridge.doneFrom i o ((hi.bridge.completed i o).1 ho)
  obtain ⟨c, hc, h1, -, -⟩ := hi.bridge.schedFrom x hx
  exact ⟨⟨c, s.bridge.taken_sent hc, h1⟩, hi.answers x hx⟩

/-- A request that is answered, one whose `send` is cancelled while the library runs it, and one that is put behind
the stop of an `aclose`. -/
def threeSends : List (Act Unit Nat) :=
  let c : Cmd Request := ⟨0, 0, { method := 0, path := "/hello" }⟩
  let d : Cmd Request := ⟨1, 0, { method := 0, path := "/slow" }⟩
  let e : Cmd Request := ⟨2, 0, { method := 0, path := "/late" }⟩
  [.connect (.ok ()), .owner, .resume, .check c, .check d, .check e, .put c, .put d, .owner, .send (.ok 7), .owner,
    .owner,
    .cancelSend 1, .send (.ok 8), .owner, .aclose 0, .acloseStop 0, .put e, .owner, .owner, .owner, .owner, .owner,
    .runLoop 0, .runLoop 0, .runLoop 0]

theorem requests_routed_three : ∃ s, runs step init threeSends = some s ∧ s.executed.map Cmd.id = [0, 1] ∧
    s.bridge.completed = [(0, .ok 7), (2, .error (.networkClosed "client is closing"))] ∧
    s.executed <+: s.bridge.sent ∧ Truthful s 0 (.ok 7) ∧
    Truthful s 2 (.error (.networkClosed "client is closing")) ∧ s.bridge.fault = false := by
  have h : runs step init threeSends = some _ := rfl
  obtain ⟨hpassed, -, -, -, hanswers, -, hfault⟩ := requests_routed h
  exact ⟨_, h, rfl, rfl, hpassed, (hanswers 0 _ (List.mem_cons_self ..)).2,
    (hanswers 2 _ (List.mem_cons_of_mem _ (List.mem_cons_self ..))).2, hfault⟩

end Nwep.Runtime.ConnectAsync
