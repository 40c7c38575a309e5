/-
The lifecycle of the managed client's owner thread: the client handle it opens and closes, and its
way out when the awaiting coroutine ends without the `AsyncClient`.

The owner closes its handle once on every path but one: a drain that meets a closed event loop ends
in an exception before `client.close()`. An owner whose result was dropped is on its way out unless
the coroutine was cancelled while it served already, which it never hears of.
-/
import Nwep.Runtime.ConnectAsync.Routing

namespace Nwep.Runtime.ConnectAsync

open Lib

variable {ε ρ : Type*} {s s' : State ε ρ} {a : Act ε ρ}

/-! ## The client handle -/

/-- What the owner did with its client by the statement. -/
def Pc.client : Pc ε ρ → Custody
  | .connect => .unopened
  | .report _ | .finished => .done
  | _ => .opened

/-- The client as it should be at the owner's statement. -/
def ClientOk (s : State ε ρ) : Prop := s.client.As s.pc.client

/-- The drain meets no closed event loop. -/
def Tidy (s : State ε ρ) : Act ε ρ → Prop
  | .owner => match s.pc with
    | .drainReject c => s.bridge.closed c.loop = false
    | _ => True
  | _ => True

/-- The owner ended with its client open. -/
def Leaked (s : State ε ρ) : Prop := s.pc = .finished ∧ s.client.Live

theorem clientOk_step (hk : ClientOk s) (hc : Tidy s a) (h : Step s a s') : ClientOk s' := by
  unfold ClientOk at hk ⊢
  cases h with
  | drainClosed hp hcl => simp only [Tidy, hp, hcl, Bool.true_eq_false] at hc
  | connectOk hp => rw [hp] at hk; exact hk.acquire
  | connectFail hp => rw [hp] at hk; exact hk.skip
  | abandon hp | close hp => rw [hp] at hk; exact hk.close
  | report hp | publish hp _ | publishLate hp _ | take hp _ | takeStop hp _ | timeout hp _ | tickOk hp | tickFail hp
  | sendOk hp | sendFail hp | resolve hp _ | resolveClosed hp _ | reject hp _ | rejectClosed hp _ | drain hp _
  | drainEmpty hp _ | drainReject hp _ => rw [hp] at hk; exact hk
  | drainStop | resume | cancelConnect | check | checkClosed | put | cancelSend | aclose | acloseAgain | acloseStop
  | acloseJoin | acloseCancel | runLoop | closeLoop => exact hk

theorem leaked_step (hl : Leaked s) (h : Step s a s') : Leaked s' := by
  obtain ⟨hf, hl⟩ := hl
  cases h with
  | resume | cancelConnect | check | checkClosed | put | cancelSend | aclose | acloseAgain | acloseStop | acloseJoin
  | acloseCancel | runLoop | closeLoop => exact ⟨hf, hl⟩
  | connectOk hp | connectFail hp | report hp | publish hp _ | publishLate hp _ | abandon hp | take hp _ | takeStop hp _
  | timeout hp _ | tickOk hp | tickFail hp | sendOk hp | sendFail hp | resolve hp _ | resolveClosed hp _ | reject hp _
  | rejectClosed hp _ | drain hp _ | drainStop hp _ | drainEmpty hp _ | drainReject hp _ | drainClosed hp _ | close hp =>
    rw [hf] at hp; cases hp

theorem tidy_break (hk : ClientOk s) (hc : ¬ Tidy s a) (h : Step s a s') : Leaked s' := by
  cases h with
  | drainClosed hp _ =>
    unfold ClientOk at hk
    rw [hp] at hk
    exact ⟨rfl, Handle.As.live hk⟩
  | drainReject hp hb =>
    refine absurd ?_ hc
    simp only [Tidy, hp]
    exact (Bridge.callSoon_some hb).1
  | report hp | publish hp _ | publishLate hp _ | abandon hp | take hp _ | takeStop hp _ | resolve hp _
  | resolveClosed hp _ | reject hp _ | rejectClosed hp _ | drain hp _ | drainStop hp _ | drainEmpty hp _ | close hp =>
    simp only [Tidy, hp, not_true_eq_false] at hc
  | _ => exact absurd trivial hc

/-- A finished owner closed its client exactly once if and only if no drain met a closed loop. -/
theorem client_released {as : List (Act ε ρ)} (h : runs step init as = some s) (hf : s.pc = .finished) :
    s.client.Released ↔ Meets step Tidy init as := by
  rcases meets_or_broken (I := ClientOk) (B := Leaked) (fun _ _ _ hi hc h => clientOk_step hi hc (step_cases h))
    (fun _ _ _ hi hc h => tidy_break hi hc (step_cases h)) (fun _ _ _ hb h => leaked_step hb (step_cases h))
    as (show ClientOk (init : State ε ρ) from rfl) h with ⟨hm, hk⟩ | ⟨hm, -, hl⟩
  · unfold ClientOk at hk
    rw [hf] at hk
    exact ⟨fun _ => hm, fun _ => hk⟩
  · exact ⟨fun hr => absurd hr hl.not_released, fun h => absurd h hm⟩

/-! ## The way out -/

/-- The labels of the owner thread. -/
def Act.isOwner : Act ε ρ → Bool
  | .connect _ | .timeout | .tick _ | .send _ | .owner => true
  | _ => false

/-- The coroutine is not cancelled while the owner serves already. -/
def Heard (s : State ε ρ) : Act ε ρ → Prop
  | .cancelConnect => s.pc.serving = false
  | _ => True

/-- The owner ended and closed its client, if it had one. -/
def Closed (s : State ε ρ) : Prop := s.pc = .finished ∧ s.client.Released

/-- While no `AsyncClient` was returned nothing was put on the queue and no `aclose` began. -/
def Untouched (s : State ε ρ) : Prop :=
  (∀ v, s.handoff.task ≠ .returned v) → s.bridge.queue.history = [] ∧ ∀ i, s.closers i = .idle

theorem untouched_step (hi : Inv s) (hu : Untouched s) (h : Step s a s') : Untouched s' := by
  unfold Untouched at hu ⊢
  cases h with
  | take _ hb | takeStop _ hb | drain _ hb | drainStop _ hb =>
    obtain ⟨q, hq, rfl⟩ := Bridge.get_some hb
    rw [← Fifo.get_history hq] at hu; exact hu
  | resolve _ hb | reject _ hb | drainReject _ hb =>
    rw [(Bridge.callSoon_taken hb).1]; exact hu
  | resume hr => exact fun _ => hu (by simp [Handoff.resume_waiting hr])
  | cancelConnect hc => exact fun _ => hu (by simp [(Handoff.cancelTask_some hc).1])
  | put hm =>
    intro ht
    rw [(hi.quiet ht).2] at hm; cases hm
  | aclose ht | acloseAgain ht => exact fun hn => absurd ht (hn ())
  | acloseStop hc | acloseJoin hc _ | acloseCancel hc =>
    intro hn
    rw [(hu hn).2] at hc; cases hc
  | runLoop hr => rw [(Bridge.runLoop_frame hr).1]; exact hu
  | connectOk | connectFail | report | publish | publishLate | abandon | timeout | tickOk | tickFail | sendOk | sendFail
  | resolveClosed | rejectClosed | drainEmpty | drainClosed | close | check | checkClosed | cancelSend | closeLoop =>
    exact hu

/-- While no `AsyncClient` was returned a drain has nothing to reject. -/
theorem tidy_of_not_returned (hi : Inv s) (ht : ∀ v, s.handoff.task ≠ .returned v) : Tidy s a := by
  cases a with
  | owner =>
    unfold Tidy
    cases hp : s.pc with
    | drainReject c =>
      have hc := s.bridge.taken_sent (hi.bridge.heldTaken c (by rw [hp]; rfl))
      rw [(hi.quiet ht).1] at hc; cases hc
    | _ => trivial
  | _ => trivial

/-- Where the owner stands when the coroutine ended without the `AsyncClient`, and it was heard. -/
structure Departing (s : State ε ρ) : Prop where
  inv : Inv s
  untouched : Untouched s
  client : ClientOk s
  dropped : s.handoff.Dropped
  away : s.pc.serving = false

/-- The steps to the end of a departing owner. -/
def Pc.rank : Pc ε ρ → ℕ
  | .connect => 3
  | .publish | .drain => 2
  | .report _ | .abandon | .close => 1
  | _ => 0

theorem Departing.not_returned (hj : Departing s) (v : Unit) : s.handoff.task ≠ .returned v := hj.dropped.not_returned v

theorem Departing.get_none (hj : Departing s) : s.bridge.get = none := by
  rw [Bridge.get_none]
  have := (hj.untouched hj.not_returned).1
  unfold Fifo.history at this
  exact (List.append_eq_nil_iff.1 this).2

theorem Departing.held_none (hj : Departing s) : s.pc.held = none := by
  cases hp : s.pc.held with
  | none => rfl
  | some c =>
    have hc := s.bridge.taken_sent (hj.inv.bridge.heldTaken c hp)
    rw [(hj.inv.quiet hj.not_returned).1] at hc; cases hc

/-- A departing owner steps towards its end, whatever the others do. -/
theorem departing_step (hj : Departing s) (h : Step s a s') :
    Departing s' ∧ s'.pc.rank + (if a.isOwner then 1 else 0) ≤ s.pc.rank := by
  have hk := clientOk_step hj.client (tidy_of_not_returned hj.inv hj.not_returned) h
  have hi := inv_step hj.inv h
  have hu := untouched_step hj.inv hj.untouched h
  have haway := hj.away
  cases h with
  | connectOk hp | connectFail hp | report hp | publishLate hp _ | abandon hp | drainEmpty hp _ | close hp =>
    exact ⟨⟨hi, hu, hk, hj.dropped, rfl⟩, by simp [hp, Pc.rank, Act.isOwner]⟩
  | publish _ hr => exact absurd hr (hj.inv.handoff.dropped_settled hj.dropped)
  | take hp _ | takeStop hp _ | timeout hp _ | tickOk hp | tickFail hp | sendOk hp | sendFail hp | resolve hp _
  | resolveClosed hp _ | reject hp _ | rejectClosed hp _ => rw [hp] at haway; cases haway
  | drain _ hb | drainStop _ hb => rw [hj.get_none] at hb; cases hb
  | drainReject hp _ | drainClosed hp _ =>
    have := hj.held_none
    rw [hp] at this; cases this
  | resume hr => exact absurd (Handoff.resume_waiting hr) hj.dropped.not_waiting
  | cancelConnect hc => exact absurd (Handoff.cancelTask_some hc).1 hj.dropped.not_waiting
  | check | checkClosed | put | cancelSend | aclose | acloseAgain | acloseStop | acloseJoin | acloseCancel | runLoop
  | closeLoop => exact ⟨⟨hi, hu, hk, hj.dropped, haway⟩, Nat.le_refl _⟩

/-- A departing owner can always step, until it ended with its client closed. -/
theorem departing_next (hj : Departing s) : Closed s ∨ ∃ a s', Act.isOwner a = true ∧ step s a = some s' := by
  have haway := hj.away
  have hheld := hj.held_none
  cases hp : s.pc with
  | finished =>
    have hk := hj.client
    unfold ClientOk at hk
    rw [hp] at hk; exact .inl ⟨hp, hk⟩
  | connect => exact .inr ⟨.connect (.ok ()), _, rfl, by simp only [step, hp]; rfl⟩
  | report e | abandon | close => exact .inr ⟨.owner, _, rfl, by simp only [step, ownerStep, hp]; rfl⟩
  | publish =>
    have hr := (Ready.setResult_none (a := ())).2 (hj.inv.handoff.dropped_settled hj.dropped)
    exact .inr ⟨.owner, _, rfl, by simp only [step, ownerStep, hp, hr]; rfl⟩
  | drain => exact .inr ⟨.owner, _, rfl, by simp only [step, ownerStep, hp, hj.get_none]; rfl⟩
  | drainReject c => rw [hp] at hheld; cases hheld
  | get | tick | send | resolve | reject => rw [hp] at haway; cases haway

/-- Whenever the coroutine ended without the `AsyncClient`, the owner does not serve. -/
def NotServing (s : State ε ρ) : Prop := s.handoff.Dropped → s.pc.serving = false

theorem notServing_step (hi : Inv s) (hn : NotServing s) (hc : Heard s a) (h : Step s a s') : NotServing s' := by
  intro hd
  cases h with
  | publish _ hr => exact absurd hr (hi.handoff.dropped_settled hd)
  | resume hr =>
    have hp := Handoff.resume_dropped hr hd
    by_contra hs
    exact hp (hi.serving (by simpa using hs))
  | cancelConnect => exact hc
  | connectOk | connectFail | report | publishLate | abandon | takeStop | tickFail | rejectClosed | drain | drainEmpty
  | drainReject | drainClosed | close => rfl
  | take hp _ | timeout hp _ | tickOk hp | sendOk hp | sendFail hp | resolve hp _ | resolveClosed hp _ | reject hp _ =>
    have := hn hd
    rw [hp] at this; cases this
  | drainStop | check | checkClosed | put | cancelSend | aclose | acloseAgain | acloseStop | acloseJoin | acloseCancel
  | runLoop | closeLoop => exact hn hd

/-- Unless the `AsyncClient` was returned the client is as it should be. -/
theorem clientOk_unless (hi : Inv s) (hk : (∀ v, s.handoff.task ≠ .returned v) → ClientOk s) (h : Step s a s') :
    (∀ v, s'.handoff.task ≠ .returned v) → ClientOk s' := by
  intro hn
  have ht : ∀ v, s.handoff.task ≠ .returned v := by
    intro v hv
    cases h with
    | resume hr => rw [Handoff.resume_waiting hr] at hv; cases hv
    | cancelConnect hc => rw [(Handoff.cancelTask_some hc).1] at hv; cases hv
    | _ => exact hn v hv
  exact clientOk_step (hk ht) (tidy_of_not_returned hi ht) h

/-- On a run whose cancellations are heard, a coroutine that ended without the `AsyncClient` left an
owner that never serves again, ends after at most `rank` steps of its own, and closes its client. -/
theorem owner_leaves {as : List (Act ε ρ)} (h : runs step init as = some s) (hm : Meets step Heard init as)
    (hd : s.handoff.Dropped) :
    Leaves step (fun _ _ => True) Act.isOwner (fun t => t.pc.serving = true) Closed s.pc.rank s := by
  have hk : Inv s ∧ Untouched s ∧ ((∀ v, s.handoff.task ≠ .returned v) → ClientOk s) ∧ NotServing s :=
    meets_inv (I := fun s => Inv s ∧ Untouched s ∧ ((∀ v, s.handoff.task ≠ .returned v) → ClientOk s) ∧ NotServing s)
      (fun s a s' ⟨hi, hu, hk, hn⟩ hc h => ⟨inv_step hi (step_cases h), untouched_step hi hu (step_cases h),
        clientOk_unless hi hk (step_cases h), notServing_step hi hn hc (step_cases h)⟩)
      as ⟨init_inv, fun _ => ⟨rfl, fun _ => rfl⟩, fun _ => rfl, fun _ => rfl⟩ hm h
  obtain ⟨hi, hu, hk, hn⟩ := hk
  exact leaves_of_rank Departing (fun s => s.pc.rank)
    (fun s a s' hj _ h => departing_step hj (step_cases h)) (fun s hj hs => by rw [hj.away] at hs; cases hs)
    (fun s hj => departing_next hj) ⟨hi, hu, hk hd.not_returned, hd, hn hd⟩

end Nwep.Runtime.ConnectAsync
