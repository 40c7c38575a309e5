/-
The lifecycle of the managed server's owner thread: the server and the dht it opens and closes, and
its way out when the awaiting coroutine ends without the `RunningServer`.

Three start-up paths miss a close: a `dht.bootstrap` that raises leaves the attached dht open while
the server is closed, so does a publication into a cancelled future, and a `node_id` that raises
ends the owner with both open. On every other path each handle is closed once, the dht first.
-/
import Nwep.Runtime.Serve.Invariant

namespace Nwep.Runtime.Serve

open Lib

variable {ν α μ ε : Type*} {cfg : Config α} {s s' : State ν α μ ε} {a : Act ν α μ ε} {p p' : Pc ν α μ ε}
  {k : Call ν α μ ε} {last : Int}

/-! ## The handles -/

/-- What the owner did with its server by the statement. -/
def Pc.server : Pc ν α μ ε → Custody
  | .build => .unopened
  | .report _ | .finished => .done
  | _ => .opened

/-- What the owner did with its dht by the statement. -/
def Pc.dht (cfg : Config α) : Pc ν α μ ε → Custody
  | .build | .attach | .giveUp _ | .report _ | .abandon => .unopened
  | .bootstrap | .dhtClose => .opened
  | .serverClose | .finished => .done
  | _ => if cfg.hasDht then .opened else .unopened

/-- The statements that only a server with a dht reaches. -/
def Pc.Fits (cfg : Config α) : Pc ν α μ ε → Prop
  | .attach | .bootstrap | .dhtClose => cfg.hasDht = true
  | _ => True

def ServerOk (s : State ν α μ ε) : Prop := s.server.As s.pc.server

structure DhtOk (cfg : Config α) (s : State ν α μ ε) : Prop where
  fits : s.pc.Fits cfg
  custody : s.dht.As (s.pc.dht cfg)

/-- The reads of `node_id` and `local_port`, which raise past every handler. -/
def Pc.loses : Pc ν α μ ε → Call ν α μ ε → Bool
  | .nodeId, .nodeId (.error _) | .localPort _, .localPort (.error _) => true
  | _, _ => false

/-- The bootstrap of an attached dht raises. -/
def Pc.strands : Pc ν α μ ε → Call ν α μ ε → Bool
  | .bootstrap, .bootstrap _ (.error _) => true
  | _, _ => false

/-- `bootstrap`, `node_id` and `local_port` do not raise, and with a dht attached the publication does
not come too late. -/
def Tidy (cfg : Config α) (s : State ν α μ ε) : Act ν α μ ε → Prop
  | .call k => s.pc.loses k = false ∧ s.pc.strands k = false
  | .owner => match s.pc with
    | .publish _ _ => s.handoff.ready ≠ .pending → cfg.hasDht = false
    | _ => True
  | _ => True

/-- An owner that ended with its server open, or goes on to its end with its dht left open. -/
def Leaked (s : State ν α μ ε) : Prop :=
  (s.pc = .finished ∧ s.server.Live) ∨
    ((∃ e, s.pc = .giveUp e ∨ s.pc = .report e) ∨ s.pc = .abandon ∨ s.pc = .finished) ∧ s.dht.Live

@[simp] theorem closing_server : (closing cfg : Pc ν α μ ε).server = .opened := by unfold closing; split <;> rfl

theorem closing_fits : (closing cfg : Pc ν α μ ε).Fits cfg := by
  unfold closing
  split
  · assumption
  · trivial

theorem dispatch_server (c : Cmd (Command ν)) : (dispatch c : Pc ν α μ ε).server = .opened := by
  unfold dispatch; split <;> rfl

theorem dispatch_dht (c : Cmd (Command ν)) :
    (dispatch c : Pc ν α μ ε).dht cfg = if cfg.hasDht then .opened else .unopened := by
  unfold dispatch; split <;> rfl

theorem dispatch_fits (c : Cmd (Command ν)) : (dispatch c : Pc ν α μ ε).Fits cfg := by
  unfold dispatch; split <;> trivial

/-- Into the `finally` block: a server without a dht has nothing of it to close. -/
theorem As.closing {h : Handle} (ha : h.As (if cfg.hasDht then .opened else .unopened)) :
    h.As ((closing cfg : Pc ν α μ ε).dht cfg) := by
  unfold Serve.closing
  cases hd : cfg.hasDht with
  | true => rw [hd] at ha; exact ha
  | false => rw [hd] at ha; exact Handle.As.skip ha

/-! ### Calls -/

theorem note_of_fails (h : s.pc.fails k = true) : s.note k = s := by
  unfold State.note
  split
  all_goals first
    | rfl
    | (rename_i hp; rw [hp] at h; cases h)

theorem fails_server (h : p.fails k = true) : p.server = .opened := by
  rcases fails_pc h with rfl | rfl | rfl | ⟨now, rfl⟩ | rfl <;> rfl

theorem fails_dht (h : p.fails k = true) : p.dht cfg = if cfg.hasDht then .opened else .unopened := by
  rcases fails_pc h with rfl | rfl | rfl | ⟨now, rfl⟩ | rfl <;> rfl

theorem serverOk_call (hk : ServerOk s) (hl : s.pc.loses k = false) (h : Next cfg last s.pc k p) :
    ServerOk { s.note k with pc := p } := by
  unfold ServerOk at hk ⊢
  generalize hp : s.pc = pc at h
  cases h with
  | buildDht | build =>
    rw [hp] at hk
    simp only [State.note, hp]
    exact hk.acquire
  | buildFail =>
    rw [hp] at hk
    simp only [State.note, hp]
    exact hk.skip
  | nodeIdFail | localPortFail => rw [hp] at hl; cases hl
  | fail hf =>
    rw [← hp] at hf
    rw [fails_server hf] at hk
    rw [note_of_fails hf, closing_server]
    exact hk
  | _ =>
    rw [hp] at hk
    simp only [State.note, hp]
    exact hk

theorem dhtOk_call (hk : DhtOk cfg s) (hl : s.pc.loses k = false) (hs : s.pc.strands k = false)
    (h : Next cfg last s.pc k p) : DhtOk cfg { s.note k with pc := p } := by
  obtain ⟨hfit, hk⟩ := hk
  generalize hp : s.pc = pc at h
  cases h with
  | buildDht hd =>
    rw [hp] at hk
    refine ⟨hd, ?_⟩
    simp only [State.note, hp]
    exact hk
  | build hd =>
    rw [hp] at hk
    refine ⟨trivial, ?_⟩
    simp only [State.note, hp, Pc.dht, hd]
    exact hk
  | attach =>
    rw [hp] at hk hfit
    refine ⟨hfit, ?_⟩
    simp only [State.note, hp]
    exact hk.acquire
  | bootstrap =>
    rw [hp] at hk hfit
    refine ⟨trivial, ?_⟩
    simp only [State.note, hp, Pc.dht, show cfg.hasDht = true from hfit]
    exact hk
  | bootstrapFail => rw [hp] at hs; cases hs
  | nodeIdFail | localPortFail => rw [hp] at hl; cases hl
  | fail hf =>
    rw [← hp] at hf
    rw [fails_dht hf] at hk
    rw [note_of_fails hf]
    exact ⟨closing_fits, As.closing hk⟩
  | tickDht hd =>
    rw [hp] at hk
    refine ⟨trivial, ?_⟩
    simp only [State.note, hp]
    exact hk
  | _ =>
    rw [hp] at hk
    refine ⟨trivial, ?_⟩
    simp only [State.note, hp]
    exact hk

/-! ### Steps -/

theorem serverOk_step (hk : ServerOk s) (hc : ∀ k, a = .call k → s.pc.loses k = false) (h : Step cfg s a s') :
    ServerOk s' := by
  cases h with
  | call hn => exact serverOk_call hk (hc _ rfl) hn
  | giveUp hp | abandon hp | serverClose hp =>
    unfold ServerOk at hk ⊢
    rw [hp] at hk; exact hk.close
  | checkStop hp _ | rejectClosed hp _ =>
    unfold ServerOk at hk ⊢
    rw [hp] at hk; simp only [closing_server]; exact hk
  | take hp _ =>
    unfold ServerOk at hk ⊢
    rw [hp] at hk; simp only [dispatch_server]; exact hk
  | report hp | publish hp _ | publishLate hp _ | check hp _ | serviced hp _ | resolve hp _ | resolveClosed hp _
  | reject hp _ | dhtClose hp =>
    unfold ServerOk at hk ⊢
    rw [hp] at hk; exact hk
  | takeStop | resume | cancelServe | put | cancelCommand | shutdown | shutdownJoin | shutdownCancel | runLoop
  | closeLoop => exact hk

theorem dhtOk_step (hk : DhtOk cfg s) (hc : Tidy cfg s a) (h : Step cfg s a s') : DhtOk cfg s' := by
  obtain ⟨hfit, hd⟩ := hk
  cases h with
  | call hn => exact dhtOk_call ⟨hfit, hd⟩ hc.1 hc.2 hn
  | publishLate hp hr =>
    simp only [Tidy, hp] at hc
    rw [hp] at hd
    refine ⟨trivial, ?_⟩
    unfold Pc.dht at hd
    rw [hc hr] at hd; exact hd
  | report hp | abandon hp => rw [hp] at hd; exact ⟨trivial, Handle.As.skip hd⟩
  | checkStop hp _ | rejectClosed hp _ => rw [hp] at hd; exact ⟨closing_fits, As.closing hd⟩
  | take hp _ => rw [hp] at hd; exact ⟨dispatch_fits _, by simp only [dispatch_dht]; exact hd⟩
  | dhtClose hp => rw [hp] at hd; exact ⟨trivial, Handle.As.close hd⟩
  | giveUp hp | publish hp _ | check hp _ | serviced hp _ | resolve hp _ | resolveClosed hp _ | reject hp _
  | serverClose hp => rw [hp] at hd; exact ⟨trivial, hd⟩
  | takeStop | resume | cancelServe | put | cancelCommand | shutdown | shutdownJoin | shutdownCancel | runLoop
  | closeLoop => exact ⟨hfit, hd⟩

theorem leaked_step (hl : Leaked s) (h : Step cfg s a s') : Leaked s' := by
  have hend : ∀ {p : Pc ν α μ ε}, s.pc = p → (∀ e, p ≠ .giveUp e) → (∀ e, p ≠ .report e) → p ≠ .abandon →
      p ≠ .finished → False := by
    rintro p hp h1 h2 h3 h4
    rcases hl with ⟨hf, -⟩ | ⟨⟨e, hf | hf⟩ | hf | hf, -⟩ <;> rw [hp] at hf
    · exact h4 hf
    · exact h1 e hf
    · exact h2 e hf
    · exact h3 hf
    · exact h4 hf
  cases h with
  | call hn =>
    generalize hp : s.pc = pc at hn
    exfalso
    cases hn with
    | fail hf =>
      rcases fails_pc hf with rfl | rfl | rfl | ⟨now, rfl⟩ | rfl <;>
        exact hend hp (by simp) (by simp) (by simp) (by simp)
    | _ => exact hend hp (by simp) (by simp) (by simp) (by simp)
  | giveUp hp | report hp | abandon hp =>
    rcases hl with ⟨hf, -⟩ | ⟨-, hl⟩
    · rw [hp] at hf; cases hf
    · exact .inr ⟨by simp, hl⟩
  | publish hp _ | publishLate hp _ | check hp _ | checkStop hp _ | take hp _ | takeStop hp _ | serviced hp _
  | resolve hp _ | resolveClosed hp _ | reject hp _ | rejectClosed hp _ | dhtClose hp | serverClose hp =>
    exact (hend hp (by simp) (by simp) (by simp) (by simp)).elim
  | resume | cancelServe | put | cancelCommand | shutdown | shutdownJoin | shutdownCancel | runLoop | closeLoop =>
    exact hl

theorem tidy_break (hs : ServerOk s) (hd : DhtOk cfg s) (hc : ¬ Tidy cfg s a) (h : Step cfg s a s') : Leaked s' := by
  obtain ⟨hfit, hd⟩ := hd
  unfold ServerOk at hs
  cases h with
  | @call k p hn =>
    generalize hp : s.pc = pc at hn
    rw [hp] at hs hd hfit
    simp only [Tidy, hp] at hc
    cases hn with
    | bootstrapFail =>
      refine .inr ⟨.inl ⟨_, .inl rfl⟩, ?_⟩
      simp only [State.note, hp]
      exact Handle.As.live hd
    | nodeIdFail | localPortFail =>
      refine .inl ⟨rfl, ?_⟩
      simp only [State.note, hp]
      exact Handle.As.live hs
    | fail hf => rcases fails_pc hf with rfl | rfl | rfl | ⟨now, rfl⟩ | rfl <;> exact absurd ⟨rfl, rfl⟩ hc
    | _ => exact absurd ⟨rfl, rfl⟩ hc
  | publishLate hp hr =>
    simp only [Tidy, hp, Classical.not_imp, Bool.not_eq_false] at hc
    rw [hp] at hd
    unfold Pc.dht at hd
    rw [hc.2] at hd
    exact .inr ⟨.inr (.inl rfl), Handle.As.live hd⟩
  | publish hp hr => exact absurd (by simp [Tidy, hp, hr]) hc
  | giveUp hp | report hp | abandon hp | check hp _ | checkStop hp _ | take hp _ | takeStop hp _ | serviced hp _
  | resolve hp _ | resolveClosed hp _ | reject hp _ | rejectClosed hp _ | dhtClose hp | serverClose hp =>
    simp only [Tidy, hp, not_true_eq_false] at hc
  | _ => exact absurd trivial hc

/-- A server that was closed has no live dht on it. -/
def InOrder (s : State ν α μ ε) : Prop := s.server.closes ≠ 0 → ¬ s.dht.Live

theorem inOrder_of_ok (hs : ServerOk s) (hd : DhtOk cfg s) : InOrder s := by
  obtain ⟨-, hd⟩ := hd
  unfold ServerOk at hs
  intro hc
  cases hp : s.pc with
  | report e | finished => rw [hp] at hd; exact hd.not_live (by simp [Pc.dht])
  | _ =>
    rw [hp] at hs
    rw [show s.server = _ from hs] at hc
    exact absurd rfl hc

/-- On a tidy run no server is closed before the dht attached to it, and a finished owner closed each
handle it obtained exactly once; on any other run a finished owner did not. -/
theorem handles_released {as : List (Act ν α μ ε)} (h : runs (step cfg) init as = some s) :
    (Meets (step cfg) (Tidy cfg) init as → InOrder s) ∧
      (s.pc = .finished → (s.server.Released ∧ s.dht.Released ↔ Meets (step cfg) (Tidy cfg) init as)) := by
  have hgood : ∀ (s : State ν α μ ε) a s', ServerOk s ∧ DhtOk cfg s → Tidy cfg s a → step cfg s a = some s' →
      ServerOk s' ∧ DhtOk cfg s' := by
    rintro s a s' ⟨hs, hd⟩ hc h
    refine ⟨serverOk_step hs ?_ (step_cases h), dhtOk_step hd hc (step_cases h)⟩
    rintro k rfl; exact hc.1
  rcases meets_or_broken (B := Leaked) hgood (fun _ _ _ hi hc h => tidy_break hi.1 hi.2 hc (step_cases h))
    (fun _ _ _ hb h => leaked_step hb (step_cases h)) as
    (show ServerOk init ∧ DhtOk cfg init from ⟨rfl, trivial, rfl⟩) h with ⟨hm, hs, hd⟩ | ⟨hm, hl⟩
  · refine ⟨fun _ => inOrder_of_ok hs hd, fun hf => ⟨fun _ => hm, fun _ => ?_⟩⟩
    unfold ServerOk at hs
    have hd := hd.custody
    rw [hf] at hs hd
    exact ⟨hs, hd⟩
  · refine ⟨fun h => absurd h hm, fun hf => ⟨fun hr => ?_, fun h => absurd h hm⟩⟩
    rcases hl with ⟨-, hl⟩ | ⟨-, hl⟩
    · exact absurd hr.1 hl.not_released
    · exact absurd hr.2 hl.not_released

/-! ## The way out -/

/-- The labels of the owner thread. -/
def Act.isOwner : Act ν α μ ε → Bool
  | .call _ | .owner => true
  | _ => false

/-- The coroutine is not cancelled while the owner serves already, and `node_id` and `local_port` do
not raise. -/
def Heard (s : State ν α μ ε) : Act ν α μ ε → Prop
  | .cancelServe => s.pc.serving = false
  | .call k => s.pc.loses k = false
  | _ => True

/-- The owner ended and closed its server, if it had one. -/
def Closed (s : State ν α μ ε) : Prop := s.pc = .finished ∧ s.server.Released

/-- Whenever the coroutine ended without the `RunningServer`, the owner does not serve. -/
def NotServing (s : State ν α μ ε) : Prop := s.handoff.Dropped → s.pc.serving = false

/-- The steps to the end of a departing owner. -/
def Pc.rank : Pc ν α μ ε → ℕ
  | .build => 7
  | .attach => 6
  | .bootstrap => 5
  | .nodeId => 4
  | .localPort _ => 3
  | .publish _ _ | .giveUp _ | .dhtClose => 2
  | .report _ | .abandon | .serverClose => 1
  | _ => 0

/-- Where the owner stands when the coroutine ended without the `RunningServer`, and it was heard. -/
structure Departing (s : State ν α μ ε) : Prop where
  inv : Inv s
  server : ServerOk s
  dropped : s.handoff.Dropped
  away : s.pc.serving = false

theorem heard_loses (hc : Heard s a) : ∀ k, a = .call k → s.pc.loses k = false := by
  rintro k rfl; exact hc

/-- A departing owner steps towards its end, whatever the others do. -/
theorem departing_step (hj : Departing s) (hc : Heard s a) (h : Step cfg s a s') :
    Departing s' ∧ s'.pc.rank + (if a.isOwner then 1 else 0) ≤ s.pc.rank := by
  have hk := serverOk_step hj.server (heard_loses hc) h
  have hi := inv_step hj.inv h
  have haway := hj.away
  cases h with
  | @call k p hn =>
    have hdrop : (s.note k).handoff.Dropped := by rw [note_handoff]; exact hj.dropped
    generalize hp : s.pc = pc at hn
    have hserv : p.serving = false := by
      by_contra hs
      have := (next_phase hn).2.2.1 (by simpa using hs)
      rw [← hp, haway] at this; cases this
    refine ⟨⟨hi, hk, hdrop, hserv⟩, ?_⟩
    have hl : s.pc.loses k = false := hc
    rw [hp] at haway hl
    cases hn with
    | fail hf => rcases fails_pc hf with rfl | rfl | rfl | ⟨now, rfl⟩ | rfl <;> cases haway
    | nodeIdFail | localPortFail => cases hl
    | buildDht | build | buildFail | attach | attachFail | bootstrap | bootstrapFail | nodeId | localPort =>
      simp [Pc.rank, Act.isOwner]
    | _ => cases haway
  | giveUp hp | report hp | publishLate hp _ | abandon hp | dhtClose hp | serverClose hp =>
    exact ⟨⟨hi, hk, hj.dropped, rfl⟩, by simp [hp, Pc.rank, Act.isOwner]⟩
  | publish _ hr => exact absurd hr (hj.inv.handoff.dropped_settled hj.dropped)
  | check hp _ | checkStop hp _ | take hp _ | takeStop hp _ | serviced hp _ | resolve hp _ | resolveClosed hp _
  | reject hp _ | rejectClosed hp _ => rw [hp] at haway; cases haway
  | resume hr => exact absurd (Handoff.resume_waiting hr) hj.dropped.not_waiting
  | cancelServe hct => exact absurd (Handoff.cancelTask_some hct).1 hj.dropped.not_waiting
  | put | cancelCommand | shutdown | shutdownJoin | shutdownCancel | runLoop | closeLoop =>
    exact ⟨⟨hi, hk, hj.dropped, haway⟩, Nat.le_refl _⟩

/-- A departing owner can always step, until it ended with its server closed. -/
theorem departing_next [Inhabited ν] (hj : Departing s) :
    Closed s ∨ ∃ a s', Act.isOwner a = true ∧ step cfg s a = some s' := by
  have haway := hj.away
  cases hp : s.pc with
  | finished =>
    have hk := hj.server
    unfold ServerOk at hk
    rw [hp] at hk; exact .inl ⟨hp, hk⟩
  | build => exact .inr ⟨.call (.build (.ok ())), _, rfl, by simp only [step, hp, Pc.next]; rfl⟩
  | attach => exact .inr ⟨.call (.attach (.ok ())), _, rfl, by simp only [step, hp, Pc.next]; rfl⟩
  | bootstrap => exact .inr ⟨.call (.bootstrap 0 (.ok ())), _, rfl, by simp only [step, hp, Pc.next]; rfl⟩
  | nodeId => exact .inr ⟨.call (.nodeId (.ok default)), _, rfl, by simp only [step, hp, Pc.next]; rfl⟩
  | localPort id => exact .inr ⟨.call (.localPort (.ok 0)), _, rfl, by simp only [step, hp, Pc.next]; rfl⟩
  | giveUp e | report e | abandon | dhtClose | serverClose =>
    exact .inr ⟨.owner, _, rfl, by simp only [step, ownerStep, hp]; rfl⟩
  | publish id port =>
    have hr := (Ready.setResult_none (a := (id, port))).2 (hj.inv.handoff.dropped_settled hj.dropped)
    exact .inr ⟨.owner, _, rfl, by simp only [step, ownerStep, hp, hr]; rfl⟩
  | _ => rw [hp] at haway; cases haway

theorem notServing_step (hi : Inv s) (hn : NotServing s) (hc : Heard s a) (h : Step cfg s a s') : NotServing s' := by
  intro hd
  cases h with
  | @call k p hnx =>
    simp only [note_handoff] at hd
    by_contra hs
    have := (next_phase hnx).2.2.1 (by simpa using hs)
    rw [hn hd] at this; cases this
  | publish _ hr => exact absurd hr (hi.handoff.dropped_settled hd)
  | resume hr =>
    have hp := Handoff.resume_dropped hr hd
    by_contra hs
    exact hp (hi.serving (by simpa using hs))
  | cancelServe => exact hc
  | giveUp | report | publishLate | abandon | dhtClose | serverClose => rfl
  | checkStop | rejectClosed => exact closing_serving
  | check hp _ | take hp _ | serviced hp _ | resolve hp _ | resolveClosed hp _ | reject hp _ =>
    have := hn hd
    rw [hp] at this; cases this
  | takeStop | put | cancelCommand | shutdown | shutdownJoin | shutdownCancel | runLoop | closeLoop => exact hn hd

/-- On a run whose cancellations are heard and whose reads of `node_id` and `local_port` return, a
coroutine that ended without the `RunningServer` left an owner that never serves again, ends after
at most `rank` steps of its own, and closes its server. -/
theorem owner_leaves [Inhabited ν] {as : List (Act ν α μ ε)} (h : runs (step cfg) init as = some s)
    (hm : Meets (step cfg) Heard init as) (hd : s.handoff.Dropped) :
    Leaves (step cfg) Heard Act.isOwner (fun t => t.pc.serving = true) Closed s.pc.rank s := by
  have hk : Inv s ∧ ServerOk s ∧ NotServing s :=
    meets_inv (I := fun s => Inv s ∧ ServerOk s ∧ NotServing s)
      (fun s a s' ⟨hi, hk, hn⟩ hc h => ⟨inv_step hi (step_cases h), serverOk_step hk (heard_loses hc) (step_cases h),
        notServing_step hi hn hc (step_cases h)⟩)
      as ⟨init_inv, rfl, fun _ => rfl⟩ hm h
  obtain ⟨hi, hk, hn⟩ := hk
  exact leaves_of_rank Departing (fun s => s.pc.rank)
    (fun s a s' hj hc h => departing_step hj hc (step_cases h)) (fun s hj hs => by rw [hj.away] at hs; cases hs)
    (fun s hj => departing_next hj) ⟨hi, hk, hd, hn hd⟩

end Nwep.Runtime.Serve
