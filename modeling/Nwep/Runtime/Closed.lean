/-
The managed closes: `RunningServer.shutdown`, `AsyncStream.aclose` and `AsyncClient.aclose`, and what
is true when a call of one returns.

A `shutdown` and an `aclose` of a stream always join the owner thread. The `aclose` of a client returns
at once when the flag `_closed` is set, which its first caller does before the owner has stopped.
-/
import Nwep.Runtime.Terminals

namespace Nwep.Runtime

open Lib

/-! ## The server -/

namespace Serve

variable {ν α μ ε : Type*} {cfg : Config α} {s s' : State ν α μ ε} {a : Act ν α μ ε}

theorem finished_stays (hf : s.pc = .finished) (h : Step cfg s a s') : s'.pc = .finished := by
  cases h with
  | @call k p hn =>
    rw [hf] at hn
    cases hn with
    | fail hk => rcases fails_pc hk with h | h | h | ⟨now, h⟩ | h <;> cases h
  | giveUp hp | report hp | publish hp _ | publishLate hp _ | abandon hp | check hp _ | checkStop hp _ | take hp _
  | takeStop hp _ | serviced hp _ | resolve hp _ | resolveClosed hp _ | reject hp _ | rejectClosed hp _ | dhtClose hp
  | serverClose hp => cases hf.symm.trans hp
  | _ => exact hf

/-- The future carries a result only after the publication, and then for good. -/
theorem published_iff (h : Step cfg s a s') :
    (s.handoff.Published → s'.handoff.Published) ∧
      (s'.handoff.Published → s.handoff.Published ∨ ∃ id port, a = .owner ∧
        s.pc = .publish id port ∧ s.handoff.ready = .pending) := by
  cases h with
  | call => simp only [note_handoff]; exact ⟨id, .inl⟩
  | @report e =>
    have hr := Handoff.report_published s.handoff e
    exact ⟨hr.2, fun h => .inl (hr.1 h)⟩
  | publish hp hr => exact ⟨fun _ => ⟨_, rfl⟩, fun _ => .inr ⟨_, _, rfl, hp, hr⟩⟩
  | resume hr => exact ⟨(Handoff.resume_published hr).2, fun h => .inl ((Handoff.resume_published hr).1 h)⟩
  | cancelServe hc => exact ⟨(Handoff.cancelTask_published hc).2, fun h => .inl ((Handoff.cancelTask_published hc).1 h)⟩
  | _ => exact ⟨id, .inl⟩

theorem joined_step (hi : Inv s) (hj : Joined s.closers s.handoff.Published (s.pc = .finished)) (h : Step cfg s a s') :
    Joined s'.closers s'.handoff.Published (s'.pc = .finished) := by
  have hmove := hj.mono (published_iff h).1 (fun hf => finished_stays hf h)
  cases h with
  | @shutdown i v ht _ => exact hj.update i ⟨v, hi.handoff.returned v ht⟩ (fun h => by cases h)
  | @shutdownJoin i hc hp => exact hj.update i (hj.published i (by rw [hc]; simp)) (fun _ => hp)
  | @shutdownCancel i hc => exact hj.update i (hj.published i (by rw [hc]; simp)) (fun h => by cases h)
  | call => simpa only [note_closers] using hmove
  | _ => exact hmove

/-- Both handles are as they should be, unless the start-up failed and nothing was published. -/
def Accounted (cfg : Config α) (s : State ν α μ ε) : Prop :=
  (ServerOk s ∧ DhtOk cfg s) ∨ (Leaked s ∧ ¬ s.handoff.Published)

theorem untidy_starting (hc : ¬ Tidy cfg s a) (h : Step cfg s a s') : s.pc.starting = true := by
  cases h with
  | @call k p hn =>
    simp only [Tidy] at hc
    generalize s.pc = pc at hc hn
    cases hn with
    | bootstrapFail | nodeIdFail | localPortFail => rfl
    | fail hf => rcases fails_pc hf with rfl | rfl | rfl | ⟨now, rfl⟩ | rfl <;> exact absurd ⟨rfl, rfl⟩ hc
    | _ => exact absurd ⟨rfl, rfl⟩ hc
  | publish hp _ | publishLate hp _ => rw [hp]; rfl
  | giveUp hp | report hp | abandon hp | check hp _ | checkStop hp _ | take hp _ | takeStop hp _ | serviced hp _
  | resolve hp _ | resolveClosed hp _ | reject hp _ | rejectClosed hp _ | dhtClose hp | serverClose hp =>
    simp only [Tidy, hp, not_true_eq_false] at hc
  | _ => exact absurd trivial hc

theorem accounted_step (hi : Inv s) (hk : Accounted cfg s) (h : Step cfg s a s') : Accounted cfg s' := by
  have hpub := (published_iff h).2
  rcases hk with ⟨hs, hd⟩ | ⟨hl, hn⟩
  · -- a handle is left open only while starting, when nothing is published yet
    by_cases hc : Tidy cfg s a
    · refine .inl ⟨serverOk_step hs ?_ h, dhtOk_step hd hc h⟩
      rintro k rfl; exact hc.1
    · refine .inr ⟨tidy_break hs hd hc h, fun hp => ?_⟩
      rcases hpub hp with hp | ⟨id, port, rfl, hp, hr⟩
      · exact hi.starting (untidy_starting hc h) hp
      · refine hc ?_
        simp only [Tidy, hp]
        exact fun hn => absurd hr hn
  · refine .inr ⟨leaked_step hl h, fun hp => ?_⟩
    rcases hpub hp with hp | ⟨id, port, -, hp, -⟩
    · exact hn hp
    · rcases hl with ⟨hf, -⟩ | ⟨⟨e, hf | hf⟩ | hf | hf, -⟩ <;> cases hf.symm.trans hp

/-- When a `shutdown` returned, the owner has ended with the server and its dht closed. -/
theorem shutdown_closed {as : List (Act ν α μ ε)} (h : runs (step cfg) init as = some s) {i : Nat}
    (hr : s.closers i = .returned) : s.pc = .finished ∧ s.server.Released ∧ s.dht.Released := by
  obtain ⟨-, hj, hk⟩ : Inv s ∧ Joined s.closers s.handoff.Published (s.pc = .finished) ∧ Accounted cfg s :=
    Lib.runs_inv (I := fun s => Inv s ∧ Joined s.closers s.handoff.Published (s.pc = .finished) ∧ Accounted cfg s)
      (fun _ _ _ hi h => ⟨inv_step hi.1 (step_cases h), joined_step hi.1 hi.2.1 (step_cases h),
        accounted_step hi.1 hi.2.2 (step_cases h)⟩)
      as ⟨init_inv, Joined.idle, .inl ⟨rfl, trivial, rfl⟩⟩ h
  have hf := hj.finished i hr
  rcases hk with ⟨hs, hd⟩ | ⟨-, hn⟩
  · have hd := hd.custody
    unfold ServerOk at hs
    rw [hf] at hs hd
    exact ⟨hf, hs, hd⟩
  · exact absurd (hj.published i (by rw [hr]; simp)) hn

end Serve

/-! ## The stream -/

namespace Stream

variable {σ κ ε : Type*} {s s' : State σ κ ε} {a : Act σ κ ε}

theorem finished_stays (hf : s.pc = .finished) (h : Step s a s') : s'.pc = .finished := by
  cases h with
  | call hn =>
    rw [hf] at hn
    cases hn
  | giveUp hp | report hp | publish hp _ | publishLate hp _ | abandon hp | abandonClient hp | check hp _
  | checkStop hp _ | put hp | fail hp | putEnd hp | streamClose hp | clientClose hp => cases hf.symm.trans hp
  | _ => exact hf

theorem published_iff (h : Step s a s') :
    (s.handoff.Published → s'.handoff.Published) ∧
      (s'.handoff.Published → s.handoff.Published ∨ ∃ v h, a = .owner ∧ s.pc = .publish v h) := by
  cases h with
  | call => simp only [note_handoff]; exact ⟨id, .inl⟩
  | @report e =>
    have hr := Handoff.report_published s.handoff e
    exact ⟨hr.2, fun h => .inl (hr.1 h)⟩
  | publish hp hr => exact ⟨fun _ => ⟨_, rfl⟩, fun _ => .inr ⟨_, _, rfl, hp⟩⟩
  | resume hr => exact ⟨(Handoff.resume_published hr).2, fun h => .inl ((Handoff.resume_published hr).1 h)⟩
  | cancelStream hc =>
    obtain ⟨hleft, hright⟩ := Handoff.cancelTask_published hc
    exact ⟨hright, fun h => .inl (hleft h)⟩
  | _ => exact ⟨id, .inl⟩

theorem joined_step (hi : Inv s) (hj : Joined s.closers s.handoff.Published (s.pc = .finished)) (h : Step s a s') :
    Joined s'.closers s'.handoff.Published (s'.pc = .finished) := by
  have hmove := hj.mono (published_iff h).1 (fun hf => finished_stays hf h)
  cases h with
  | @aclose i v ht _ => exact hj.update i ⟨v, hi.handoff.returned v ht⟩ (fun h => by cases h)
  | @acloseJoin i hc hp => exact hj.update i (hj.published i (by rw [hc]; simp)) (fun _ => hp)
  | @acloseCancel i hc => exact hj.update i (hj.published i (by rw [hc]; simp)) (fun h => by cases h)
  | call => simpa only [note_closers] using hmove
  | _ => exact hmove

/-- The stream is as it should be, unless its leading frame could not be read and nothing was published. -/
def Accounted (s : State σ κ ε) : Prop := StreamOk s ∨ (Leaked s ∧ ¬ s.handoff.Published)

theorem untidy_starting (hc : ¬ Tidy s a) (h : Step s a s') : s.pc.starting = true := by
  cases h with
  | call hn =>
    simp only [Tidy] at hc
    generalize s.pc = pc at hc hn
    cases hn with
    | responseFail | statusFail | headersFail => rfl
    | _ => exact absurd rfl hc
  | _ => exact absurd trivial hc

theorem accounted_step (hi : Inv s) (hk : Accounted s) (h : Step s a s') : Accounted s' := by
  have hpub := (published_iff h).2
  rcases hk with hs | ⟨hl, hn⟩
  · by_cases hc : Tidy s a
    · exact .inl (streamOk_step hs hc h)
    · refine .inr ⟨tidy_break hs hc h, fun hp => ?_⟩
      rcases hpub hp with hp | ⟨v, h', rfl, -⟩
      · exact hi.starting (untidy_starting hc h) hp
      · exact hc trivial
  · refine .inr ⟨leaked_step hl h, fun hp => ?_⟩
    rcases hpub hp with hp | ⟨v, h', -, hp⟩
    · exact hn hp
    · rcases hl with ⟨⟨e, hf | hf⟩ | hf, -⟩ <;> cases hf.symm.trans hp

/-- When an `aclose` returned, the owner has ended with the stream and its client closed. -/
theorem aclose_closed {as : List (Act σ κ ε)} (h : runs step init as = some s) {i : Nat}
    (hr : s.closers i = .returned) : s.pc = .finished ∧ s.client.Released ∧ s.stream.Released := by
  obtain ⟨-, hj, hk⟩ : Inv s ∧ Joined s.closers s.handoff.Published (s.pc = .finished) ∧ Accounted s :=
    Lib.runs_inv (I := fun s => Inv s ∧ Joined s.closers s.handoff.Published (s.pc = .finished) ∧ Accounted s)
      (fun _ _ _ hi h => ⟨inv_step hi.1 (step_cases h), joined_step hi.1 hi.2.1 (step_cases h),
        accounted_step hi.1 hi.2.2 (step_cases h)⟩)
      as ⟨init_inv, Joined.idle, .inl rfl⟩ h
  have hf := hj.finished i hr
  have hclient := (handles_released h hf).1
  rcases hk with hs | ⟨-, hn⟩
  · unfold StreamOk at hs
    rw [hf] at hs
    exact ⟨hf, hclient, hs⟩
  · exact absurd (hj.published i (by rw [hr]; simp)) hn

end Stream

/-! ## The client -/

namespace ConnectAsync

variable {ε ρ : Type*} {s s' : State ε ρ} {a : Act ε ρ}

/-- No `aclose` finds the flag set while the owner still runs. -/
def InTurn (s : State ε ρ) : Act ε ρ → Prop
  | .aclose _ => s.closed = true → s.pc = .finished
  | _ => True

theorem finished_stays (hf : s.pc = .finished) (h : Step s a s') : s'.pc = .finished := by
  cases h with
  | resume | cancelConnect | check | checkClosed | put | cancelSend | aclose | acloseAgain | acloseStop | acloseJoin
  | acloseCancel | runLoop | closeLoop => exact hf
  | connectOk hp | connectFail hp | report hp | publish hp _ | publishLate hp _ | abandon hp | take hp _ | takeStop hp _
  | timeout hp _ | tickOk hp | tickFail hp | sendOk hp | sendFail hp | resolve hp _ | resolveClosed hp _ | reject hp _
  | rejectClosed hp _ | drain hp _ | drainStop hp _ | drainEmpty hp _ | drainReject hp _ | drainClosed hp _ | close hp =>
    cases hf.symm.trans hp

theorem joined_step (hj : Joined s.closers True (s.pc = .finished)) (hc : InTurn s a) (h : Step s a s') :
    Joined s'.closers True (s'.pc = .finished) := by
  have hmove := hj.mono id (fun hf => finished_stays hf h)
  cases h with
  | @aclose i | @acloseStop i | @acloseCancel i => exact hj.update i trivial (fun h => by cases h)
  -- the one return without a join
  | @acloseAgain i _ _ hcl => exact hj.update i trivial (fun _ => hc hcl)
  | @acloseJoin i _ hp => exact hj.update i trivial (fun _ => hp)
  | _ => exact hmove

/-- On a run in which no `aclose` finds the flag set before the owner ended, and no drain meets a closed
loop, the owner has ended with its client closed when an `aclose` returned. -/
theorem aclose_closed {as : List (Act ε ρ)} (h : runs step init as = some s)
    (hm : Meets step (fun s a => InTurn s a ∧ Tidy s a) init as) {i : Nat} (hr : s.closers i = .returned) :
    s.pc = .finished ∧ s.client.Released := by
  have hj : Joined s.closers True (s.pc = .finished) :=
    meets_inv (I := fun s : State ε ρ => Joined s.closers True (s.pc = .finished))
      (fun _ _ _ hi hc h => joined_step hi hc.1 (step_cases h)) as Joined.idle hm h
  have hf := hj.finished i hr
  exact ⟨hf, (client_released h hf).2 (hm.mono fun _ _ hc => hc.2)⟩

end ConnectAsync

/-! ## Every managed close -/

variable {ν α μ σ κ ε ρ : Type*}

/-- Whenever a call of a managed close returned, the owner thread has ended and closed its handles:
every `shutdown` and every `aclose` of a stream, and the `aclose` of a client on the runs in which none
finds the flag set before the owner ended and no drain meets a closed loop. -/
theorem closed_when_returned :
    (∀ (cfg : Serve.Config α) (as : List (Serve.Act ν α μ ε)) (s : Serve.State ν α μ ε),
      runs (Serve.step cfg) Serve.init as = some s → ∀ i, s.closers i = .returned →
        s.pc = .finished ∧ s.server.Released ∧ s.dht.Released) ∧
    (∀ (as : List (Stream.Act σ κ ε)) (s : Stream.State σ κ ε),
      runs Stream.step Stream.init as = some s → ∀ i, s.closers i = .returned →
        s.pc = .finished ∧ s.client.Released ∧ s.stream.Released) ∧
    (∀ (as : List (ConnectAsync.Act ε ρ)) (s : ConnectAsync.State ε ρ),
      runs ConnectAsync.step ConnectAsync.init as = some s →
      Meets ConnectAsync.step (fun s a => ConnectAsync.InTurn s a ∧ ConnectAsync.Tidy s a) ConnectAsync.init as →
      ∀ i, s.closers i = .returned → s.pc = .finished ∧ s.client.Released) :=
  ⟨fun _ _ _ h _ hr => Serve.shutdown_closed h hr, fun _ _ h _ hr => Stream.aclose_closed h hr,
    fun _ _ h hm _ hr => ConnectAsync.aclose_closed h hm hr⟩

/-- A first `aclose` cancelled at its join, and a second one after the owner ended. -/
def closedTwice : List (ConnectAsync.Act Unit Nat) :=
  [.connect (.ok ()), .owner, .resume, .aclose 0, .acloseStop 0, .acloseCancel 0, .owner, .owner, .owner, .aclose 1]

theorem closed_when_returned_twice :
    (∃ s, runs ConnectAsync.step ConnectAsync.init closedTwice = some s ∧ s.closers 1 = .returned ∧
      s.pc = .finished ∧ s.client.Released) ∧
    (∃ s, runs (Serve.step ⟨true, none⟩) Serve.init servedOnce = some s ∧ s.closers 0 = .returned ∧
      s.pc = .finished ∧ s.server.Released ∧ s.dht.Released) := by
  have ht := closed_when_returned (ν := Nat) (α := Nat) (μ := Nat) (σ := Nat) (κ := Nat) (ε := Unit) (ρ := Nat)
  refine ⟨⟨_, rfl, rfl, ht.2.2 closedTwice _ rfl ?_ 1 rfl⟩, ⟨_, rfl, rfl, ht.1 ⟨true, none⟩ servedOnce _ rfl 0 rfl⟩⟩
  have t {s : ConnectAsync.State Unit Nat} {a : ConnectAsync.Act Unit Nat} (h : ConnectAsync.InTurn s a)
      (k : ConnectAsync.Tidy s a) : ConnectAsync.InTurn s a ∧ ConnectAsync.Tidy s a := ⟨h, k⟩
  exact ⟨t trivial trivial, t trivial trivial, t trivial trivial, t (fun h => by cases h) trivial, t trivial trivial,
    t trivial trivial, t trivial trivial, t trivial trivial, t trivial trivial, t (fun _ => rfl) trivial, trivial⟩

/-- Two calls of `aclose` on one client: the first has set the flag, and the second returns while the
owner serves on. -/
theorem closed_too_early : ∃ s, runs ConnectAsync.step (ConnectAsync.init : ConnectAsync.State Unit Nat)
      [.connect (.ok ()), .owner, .resume, .aclose 0, .acloseStop 0, .aclose 1] = some s ∧
    s.closers 1 = .returned ∧ s.pc ≠ .finished ∧ ¬ s.client.Released :=
  ⟨_, rfl, rfl, by rintro ⟨⟩, by decide⟩

end Nwep.Runtime
