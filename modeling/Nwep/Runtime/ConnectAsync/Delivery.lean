/-
Delivery of the managed client's requests. A command put while the owner thread still reads its
queue is answered; one that arrives after the drain found the queue empty, or waits behind a command
whose closed loop breaks the drain off, is lost, though `send` accepted it.

`InTime` excludes these two cases step by step, and on the runs that meet it no request is lost.
-/
import Nwep.Runtime.ConnectAsync.Routing

namespace Nwep.Runtime.ConnectAsync

open Lib

variable {ε ρ : Type*} {s s' : State ε ρ}

/-- The owner does not look at its queue again. -/
def Pc.past : Pc ε ρ → Bool
  | .close | .finished => true
  | _ => false

/-- A finished owner left no command unanswered whose loop is open. -/
def NoLostRequest (s : State ε ρ) : Prop :=
  s.pc = .finished → ∀ c ∈ s.bridge.sent, s.bridge.closed c.loop = false → s.bridge.Answered c

/-- A command of an open loop is put before the owner's last look at the queue, and the drain meets
a closed loop only when nothing that waits behind it has an open one. -/
def InTime (s : State ε ρ) : Act ε ρ → Prop
  | .put c => s.bridge.closed c.loop = false → s.pc.past = false
  | .owner => match s.pc with
    | .drainReject c => s.bridge.closed c.loop = true → s.bridge.Deserted
    | _ => True
  | _ => True

/-- Past its last look the owner leaves a deserted queue behind. -/
def LeftDeserted (s : State ε ρ) : Prop := s.pc.past = true → s.bridge.Deserted

/-- Before the publication nothing was put. -/
theorem Inv.deserted (hi : Inv s) (h : s.pc.starting = true) : s.bridge.Deserted :=
  Bridge.deserted_of_sent_nil (hi.quiet (hi.handoff.not_returned (hi.starting h))).1

theorem leftDeserted_step {a : Act ε ρ} (hi : Inv s) (hl : LeftDeserted s) (hc : InTime s a) (h : Step s a s') :
    LeftDeserted s' := by
  unfold LeftDeserted at hl ⊢
  cases h with
  | connectOk | connectFail | publish | publishLate | take | takeStop | timeout | tickOk | tickFail | sendOk | sendFail
  | resolve | resolveClosed | reject | rejectClosed | drain | drainReject => intro hp; cases hp
  | report hp | abandon hp => exact fun _ => hi.deserted (by simp [hp, Pc.starting])
  | drainStop hp _ => intro hp'; simp [hp, Pc.past] at hp'
  | drainEmpty hp hb => exact fun _ => Bridge.deserted_nil (Bridge.get_none.1 hb)
  | drainClosed hp hcl =>
    simp only [InTime, hp] at hc
    exact fun _ => hc hcl
  | close hp => exact fun _ => hl (by simp [hp, Pc.past])
  | put hm hb =>
    intro hp
    refine (hl hp).put hb ?_
    by_contra hopen
    have := hc (by simpa using hopen)
    rw [hp] at this; cases this
  | acloseStop => exact fun hp => (hl hp).putStop
  | runLoop hr =>
    obtain ⟨hq, -, hcl⟩ := Bridge.runLoop_frame hr
    exact fun hp => (hl hp).mono (fun c hc => by rwa [hq] at hc) (fun l h => by rwa [hcl])
  | closeLoop => exact fun hp => (hl hp).mono (fun _ hc => hc) (fun _ h => Bridge.closeLoop_closed _ h)
  | resume | cancelConnect | check | checkClosed | cancelSend | aclose | acloseAgain | acloseJoin | acloseCancel =>
    exact hl

/-- On a run whose puts come in time and whose drain is not broken off, every reachable state has
all requests of a finished owner answered. -/
theorem no_lost_request {as : List (Act ε ρ)} (h : runs step init as = some s) (hm : Meets step InTime init as) :
    NoLostRequest s := by
  have hk : Inv s ∧ LeftDeserted s :=
    meets_inv (I := fun s => Inv s ∧ LeftDeserted s)
      (fun s a s' hi hc h => ⟨inv_step hi.1 (step_cases h), leftDeserted_step hi.1 hi.2 hc (step_cases h)⟩)
      as ⟨init_inv, fun hp => by cases hp⟩ hm h
  intro hf c hc hl
  have hb := hk.1.bridge
  rw [hf] at hb
  exact hb.answered_of_deserted (hk.2 (by simp [hf, Pc.past])) hc hl

/-- A request answered, one queued behind `aclose`, and the drain that fails it. -/
def sendThenClose : List (Act Unit Nat) :=
  let c : Cmd Request := ⟨0, 0, { method := 0, path := "/hello" }⟩
  let d : Cmd Request := ⟨1, 0, { method := 0, path := "/late" }⟩
  [.connect (.ok ()), .owner, .resume, .check c, .check d, .put c, .owner, .send (.ok 7), .owner, .aclose 0,
    .acloseStop 0, .put d, .owner, .owner, .owner, .owner, .owner, .acloseJoin 0]

theorem no_lost_request_close : ∃ s, runs step init sendThenClose = some s ∧ s.pc = .finished ∧
    s.bridge.sent.length = 2 ∧ NoLostRequest s := by
  refine ⟨_, rfl, rfl, rfl, no_lost_request (show runs step init sendThenClose = some _ from rfl) ?_⟩
  exact ⟨trivial, trivial, trivial, trivial, trivial, fun _ => rfl, trivial, trivial, trivial, trivial, trivial,
    fun _ => rfl, trivial, trivial, fun h => (Bool.false_ne_true h).elim, trivial, trivial, trivial, trivial⟩

/-- An idle tick raises, the owner drains and closes, and a `send` on the client, which is not closed,
puts a command nobody will take. -/
def sendAfterFault : List (Act Unit Nat) :=
  let c : Cmd Request := ⟨0, 0, { method := 0, path := "/hello" }⟩
  [.connect (.ok ()), .owner, .resume, .timeout, .tick (.error ()), .owner, .owner, .check c, .put c]

theorem request_lost : ∃ s, runs step init sendAfterFault = some s ∧ ¬ NoLostRequest s := by
  refine ⟨_, rfl, fun h => ?_⟩
  obtain ⟨x, hx, -⟩ := h rfl ⟨0, 0, { method := 0, path := "/hello" }⟩ (List.mem_singleton.2 rfl) rfl
  cases hx

end Nwep.Runtime.ConnectAsync
