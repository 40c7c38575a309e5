/-
What holds in every reachable state of the managed server: the owner's phase and the published
result agree, commands exist only once the `RunningServer` was handed over, and the bridge keeps its
invariant with the command in the owner's hands. `next_phase` says once what a library call does to
the owner's phase.
-/
import Nwep.Runtime.Serve

namespace Nwep.Runtime.Serve

open Lib

variable {ν α μ ε : Type*} {cfg : Config α} {s s' : State ν α μ ε} {p p' : Pc ν α μ ε} {last : Int}

/-! ## Phases of the owner thread -/

/-- Before the result is published. -/
def Pc.starting : Pc ν α μ ε → Bool
  | .build | .attach | .bootstrap | .giveUp _ | .report _ | .nodeId | .localPort _ | .publish _ _ | .abandon => true
  | _ => false

/-- Inside the `try` whose `finally` closes the handles. -/
def Pc.serving : Pc ν α μ ε → Bool
  | .fileno | .check | .service | .blocking _ _ _ | .metrics _ | .resolve _ _ | .reject _ _ | .tick | .dhtTick
  | .announce _ | .nextTimeout | .wait _ => true
  | _ => false

/-- In the `finally` block, or past it. -/
def Pc.past : Pc ν α μ ε → Bool
  | .dhtClose | .serverClose | .finished => true
  | _ => false

@[simp] theorem closing_held : (closing cfg : Pc ν α μ ε).held = none := by unfold closing; split <;> rfl
@[simp] theorem closing_starting : (closing cfg : Pc ν α μ ε).starting = false := by unfold closing; split <;> rfl
@[simp] theorem closing_serving : (closing cfg : Pc ν α μ ε).serving = false := by unfold closing; split <;> rfl

theorem dispatch_held (c : Cmd (Command ν)) : (dispatch c : Pc ν α μ ε).held = some c := by
  unfold dispatch; split <;> rfl

theorem dispatch_starting (c : Cmd (Command ν)) : (dispatch c : Pc ν α μ ε).starting = false := by
  unfold dispatch; split <;> rfl

theorem dispatch_past (c : Cmd (Command ν)) : (dispatch c : Pc ν α μ ε).past = false := by
  unfold dispatch; split <;> rfl

/-- The statements of the loop that a failing call ends. -/
theorem fails_pc {k : Call ν α μ ε} (h : p.fails k = true) :
    p = .fileno ∨ p = .tick ∨ p = .dhtTick ∨ (∃ now, p = .announce now) ∨ p = .nextTimeout := by
  unfold Pc.fails at h
  split at h <;> first
    | (cases h; done)
    | simp

/-- What a library call does to the owner's phase: it keeps the command in hand, never re-enters
an earlier phase, and leaves the loop only by failing there; an owner still starting ends at once
only where `node_id` or `local_port` raises. -/
theorem next_phase {k : Call ν α μ ε} (h : Next cfg last p k p') :
    p'.held = p.held ∧ (p'.starting = true → p.starting = true) ∧ (p'.serving = true → p.serving = true) ∧
      (p'.past = true → p.fails k = true ∨ p.starting = true) := by
  cases h with
  | fail hf =>
    refine ⟨?_, by simp, by simp, fun _ => .inl hf⟩
    rcases fails_pc hf with rfl | rfl | rfl | ⟨now, rfl⟩ | rfl <;> exact closing_held
  | _ => simp [Pc.held, Pc.starting, Pc.serving, Pc.past]

/-! ### What a call sets -/

@[simp] theorem note_bridge (k : Call ν α μ ε) : (s.note k).bridge = s.bridge := by
  unfold State.note; split <;> rfl

@[simp] theorem note_handoff (k : Call ν α μ ε) : (s.note k).handoff = s.handoff := by
  unfold State.note; split <;> rfl

@[simp] theorem note_stop (k : Call ν α μ ε) : (s.note k).stop = s.stop := by
  unfold State.note; split <;> rfl

@[simp] theorem note_closers (k : Call ν α μ ε) : (s.note k).closers = s.closers := by
  unfold State.note; split <;> rfl

/-! ## The invariant -/

structure Inv (s : State ν α μ ε) : Prop where
  handoff : s.handoff.Ok
  bridge : s.bridge.Ok s.pc.held
  quiet : (∀ v, s.handoff.task ≠ .returned v) → s.bridge.sent = []
  starting : s.pc.starting = true → ¬ s.handoff.Published
  serving : s.pc.serving = true → s.handoff.Published

theorem init_inv : Inv (init : State ν α μ ε) where
  handoff := Handoff.init_ok
  bridge := Bridge.init_ok
  quiet _ := rfl
  starting _ := by rintro ⟨a, ha⟩; cases ha
  serving h := by cases h

/-- The owner moves on within its phases, the bridge and the hand-off as they were. -/
theorem Inv.move (hi : Inv s) (hpc : s'.pc.held = s.pc.held) (hbr : s'.bridge = s.bridge)
    (hho : s'.handoff = s.handoff) (hstart : s'.pc.starting = true → s.pc.starting = true)
    (hserv : s'.pc.serving = true → s.pc.serving = true) : Inv s' where
  handoff := by rw [hho]; exact hi.handoff
  bridge := by rw [hpc, hbr]; exact hi.bridge
  quiet := by rw [hho, hbr]; exact hi.quiet
  starting h := by rw [hho]; exact hi.starting (hstart h)
  serving h := by rw [hho]; exact hi.serving (hserv h)

/-- The owner takes from its queue or answers, inside its loop. -/
theorem Inv.serve {b : Bridge (Command ν) (Exc ε) (Answer α μ)} (hi : Inv s) (hp : s.pc.serving = true)
    (hstart : p'.starting = false) (hbr : b.Ok p'.held) (hs : b.sent = s.bridge.sent) :
    Inv { s with pc := p', bridge := b } where
  handoff := hi.handoff
  bridge := hbr
  quiet h := hs.trans (hi.quiet h)
  starting h := by simp only [hstart, Bool.false_eq_true] at h
  serving _ := hi.serving hp

/-- The asyncio side moves: the owner's statement stays and a published result stays published. -/
theorem Inv.frame (hi : Inv s) (hpc : s'.pc = s.pc) (hho : s'.handoff.Ok)
    (hpub : s'.handoff.Published ↔ s.handoff.Published) (hbr : s'.bridge.Ok s.pc.held)
    (hq : (∀ v, s'.handoff.task ≠ .returned v) → s'.bridge.sent = []) : Inv s' where
  handoff := hho
  bridge := by rw [hpc]; exact hbr
  quiet := hq
  starting h hp := hi.starting (by rwa [hpc] at h) (hpub.1 hp)
  serving h := hpub.2 (hi.serving (by rwa [hpc] at h))

theorem inv_step {a : Act ν α μ ε} (hi : Inv s) (h : Step cfg s a s') : Inv s' := by
  have held {c : Option (Cmd (Command ν))} (hp : s.pc.held = c) : s.bridge.Ok c := hp ▸ hi.bridge
  cases h with
  | call hp =>
    obtain ⟨h1, h2, h3, -⟩ := next_phase hp
    exact hi.move h1 (note_bridge _) (note_handoff _) h2 h3
  | giveUp hp | publishLate hp _ | abandon hp | check hp _ | serviced hp _ | dhtClose hp | serverClose hp
  | resolveClosed hp _ =>
    exact hi.move (by rw [hp]; rfl) rfl rfl (by simp [hp, Pc.starting]) (by simp [hp, Pc.serving])
  | checkStop hp _ => exact hi.move (by rw [hp]; exact closing_held) rfl rfl (by simp) (by simp)
  | @report e hp =>
    exact {
      handoff := Handoff.report_ok hi.handoff e
      bridge := held (by rw [hp]; rfl)
      quiet := hi.quiet
      starting := fun h => by cases h
      serving := fun h => by cases h }
  | publish hp hr =>
    exact {
      handoff := Handoff.settle_ok hi.handoff hr (by simp)
      bridge := held (by rw [hp]; rfl)
      quiet := hi.quiet
      starting := fun h => by cases h
      serving := fun _ => ⟨_, rfl⟩ }
  | take hp hb =>
    exact hi.serve (by rw [hp]; rfl) (dispatch_starting _)
      (by rw [dispatch_held]; exact Bridge.get_cmd_ok (held (by rw [hp]; rfl)) hb) (Bridge.get_sent hb)
  | takeStop hp hb =>
    have hok := Bridge.get_stop_ok (held (by rw [hp]; rfl)) hb
    have := hi.serve (by rw [hp]; rfl)
        (show (Pc.service : Pc ν α μ ε).starting = false from rfl) hok (Bridge.get_sent hb)
    rwa [← hp] at this
  | resolve hp hb | reject hp hb =>
    exact hi.serve (by rw [hp]; rfl) rfl (Bridge.callSoon_ok (held (by rw [hp]; rfl)) hb)
      (by simp only [Bridge.sent, (Bridge.callSoon_taken hb).1])
  | rejectClosed hp hc =>
    exact {
      handoff := hi.handoff
      bridge := by simp only [closing_held]; exact Bridge.drop_ok (held (by rw [hp]; rfl)) hc
      quiet := hi.quiet
      starting := fun h => by simp at h
      serving := fun h => by simp at h }
  | resume hr =>
    have hpub := Handoff.resume_published hr
    exact hi.frame rfl (Handoff.resume_ok hr) hpub hi.bridge (fun _ => hi.quiet (by simp [Handoff.resume_waiting hr]))
  | cancelServe hc =>
    have hpub := Handoff.cancelTask_published hc
    exact hi.frame rfl (Handoff.cancelTask_ok hc) hpub hi.bridge
      (fun _ => hi.quiet (by simp [(Handoff.cancelTask_some hc).1]))
  | put ht _ hb =>
    exact hi.frame rfl hi.handoff Iff.rfl (Bridge.put_ok hi.bridge hb)
      (fun h => absurd ht (h _))
  | cancelCommand => exact hi.frame rfl hi.handoff Iff.rfl (Bridge.cancel_ok hi.bridge _) hi.quiet
  | shutdown | shutdownJoin | shutdownCancel => exact hi.frame rfl hi.handoff Iff.rfl hi.bridge hi.quiet
  | runLoop hr =>
    obtain ⟨hq, -, -⟩ := Bridge.runLoop_frame hr
    exact hi.frame rfl hi.handoff Iff.rfl (Bridge.runLoop_ok hi.bridge hr)
      (fun h => by simp only [Bridge.sent, hq]; exact hi.quiet h)
  | closeLoop => exact hi.frame rfl hi.handoff Iff.rfl (Bridge.closeLoop_ok hi.bridge _) hi.quiet

theorem runs_inv {as : List (Act ν α μ ε)} (h : runs (step cfg) init as = some s) : Inv s :=
  Lib.runs_inv (fun _ _ _ hi h => inv_step hi (step_cases h)) as init_inv h

end Nwep.Runtime.Serve
