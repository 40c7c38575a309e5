/-
Delivery of the managed server's commands. The owner services its queue at the top of each
iteration and never drains it: a command that waits when the loop is left, or arrives after that, is
neither resolved nor rejected, unlike in the managed client, whose owner drains its queue.

`InTime` excludes these cases step by step, and on the runs that meet it no command is lost.
-/
import Nwep.Runtime.Serve.Invariant

namespace Nwep.Runtime.Serve

open Lib

variable {ν α μ ε : Type*} {cfg : Config α} {s s' : State ν α μ ε}

/-- A finished owner left no command unanswered whose loop is open. -/
def NoLostCommand (s : State ν α μ ε) : Prop :=
  s.pc = .finished → ∀ c ∈ s.bridge.sent, s.bridge.closed c.loop = false → s.bridge.Answered c

/-- The owner leaves its loop only when no command of an open loop waits, and no such command is put
after it left. -/
def InTime (s : State ν α μ ε) : Act ν α μ ε → Prop
  | .call k => s.pc.fails k = true → s.bridge.Deserted
  | .owner => match s.pc with
    | .check => s.stop = true → s.bridge.Deserted
    | .reject c _ => s.bridge.closed c.loop = true → s.bridge.Deserted
    | _ => True
  | .put c => s.bridge.closed c.loop = false → s.pc.past = false
  | _ => True

/-- Out of its loop the owner leaves a deserted queue behind. -/
def LeftDeserted (s : State ν α μ ε) : Prop := s.pc.past = true → s.bridge.Deserted

/-- Before the publication nothing was put. -/
theorem Inv.deserted (hi : Inv s) (h : s.pc.starting = true) : s.bridge.Deserted :=
  Bridge.deserted_of_sent_nil (hi.quiet (hi.handoff.not_returned (hi.starting h)))

theorem leftDeserted_step {a : Act ν α μ ε} (hi : Inv s) (hl : LeftDeserted s) (hc : InTime s a)
    (h : Step cfg s a s') : LeftDeserted s' := by
  unfold LeftDeserted at hl ⊢
  cases h with
  | call hp =>
    obtain ⟨-, -, -, h4⟩ := next_phase hp
    rw [note_bridge]
    exact fun hp => (h4 hp).elim hc hi.deserted
  | giveUp | publish | publishLate | check | serviced | resolve | resolveClosed | reject => intro hp; cases hp
  | report hp | abandon hp => exact fun _ => hi.deserted (by rw [hp]; rfl)
  | checkStop hp hs =>
    simp only [InTime, hp] at hc
    exact fun _ => hc hs
  | rejectClosed hp hcl =>
    simp only [InTime, hp] at hc
    exact fun _ => hc hcl
  | take => intro hp; simp only [dispatch_past, Bool.false_eq_true] at hp
  | takeStop hp => intro hp'; simp only [hp, Pc.past, Bool.false_eq_true] at hp'
  | dhtClose hp | serverClose hp => exact fun _ => hl (by rw [hp]; rfl)
  | put _ _ hb =>
    intro hp
    refine (hl hp).put hb ?_
    by_contra hopen
    have := hc (by simpa using hopen)
    rw [hp] at this; cases this
  | runLoop hr =>
    obtain ⟨hq, -, hcl⟩ := Bridge.runLoop_frame hr
    exact fun hp => (hl hp).mono (fun c hc => by rwa [hq] at hc) (fun l h => by rwa [hcl])
  | closeLoop => exact fun hp => (hl hp).mono (fun _ hc => hc) (fun _ h => Bridge.closeLoop_closed _ h)
  | resume | cancelServe | cancelCommand | shutdown | shutdownJoin | shutdownCancel => exact hl

/-- On a run in which the owner leaves its loop with no command waiting, and none is put after that,
every reachable state has all commands of a finished owner answered. -/
theorem no_lost_command {as : List (Act ν α μ ε)} (h : runs (step cfg) init as = some s)
    (hm : Meets (step cfg) InTime init as) : NoLostCommand s := by
  have hk : Inv s ∧ LeftDeserted s :=
    meets_inv (I := fun s => Inv s ∧ LeftDeserted s)
      (fun s a s' hi hc h => ⟨inv_step hi.1 (step_cases h), leftDeserted_step hi.1 hi.2 hc (step_cases h)⟩)
      as ⟨init_inv, fun hp => by cases hp⟩ hm h
  intro hf c hc hl
  have hb := hk.1.bridge
  rw [hf] at hb
  exact hb.answered_of_deserted (hk.2 (by rw [hf]; rfl)) hc hl

/-- A metrics command answered before the stop, and the teardown. -/
def scrapeThenStop : List (Act Nat Nat Nat Unit) :=
  startUp ++ [.owner, .put ⟨0, 0, .dhtMetrics⟩, .owner, .call (.metrics (.ok 9)), .owner, .owner, .shutdown 0,
    .call (.tick (.ok ())), .call (.dhtTick 1 (.ok ())), .call (.nextTimeout (.ok none)), .call .wait, .owner, .owner,
    .owner, .shutdownJoin 0]

theorem no_lost_command_scrape : ∃ s, runs (step withDht) init scrapeThenStop = some s ∧ s.pc = .finished ∧
    s.bridge.sent.length = 1 ∧ NoLostCommand s := by
  refine ⟨_, rfl, rfl, rfl, no_lost_command (show runs (step withDht) init scrapeThenStop = some _ from rfl) ?_⟩
  exact ⟨Bool.noConfusion, Bool.noConfusion, Bool.noConfusion, Bool.noConfusion, Bool.noConfusion, trivial, trivial,
    Bool.noConfusion, Bool.noConfusion, fun _ => rfl, trivial, Bool.noConfusion, trivial, trivial, trivial,
    Bool.noConfusion, Bool.noConfusion, Bool.noConfusion, Bool.noConfusion, fun _ => Bridge.deserted_nil rfl,
    trivial, trivial, trivial, trivial⟩

/-- A command put after the stop was set, while the owner waits on its socket: the owner leaves its
loop without a look at the queue. -/
def scrapeAfterStop : List (Act Nat Nat Nat Unit) :=
  startUp ++ [.owner, .owner, .call (.tick (.ok ())), .call (.dhtTick 1 (.ok ())), .call (.nextTimeout (.ok none)),
    .shutdown 0, .put ⟨0, 0, .dhtMetrics⟩, .call .wait, .owner, .owner, .owner]

theorem command_lost : ∃ s, runs (step withDht) init scrapeAfterStop = some s ∧ ¬ NoLostCommand s := by
  refine ⟨_, rfl, fun h => ?_⟩
  obtain ⟨x, hx, -⟩ := h rfl ⟨0, 0, .dhtMetrics⟩ (List.mem_singleton.2 rfl) rfl
  cases hx

end Nwep.Runtime.Serve
