/-
Start-up of the three managed terminals: by the time an owner thread has ended, the awaiting coroutine
has been told, with the result, with the exception that the owner met, or by its own cancellation.

Each owner discharges the report it owes move by move, with one gap: `_serve` reads `node_id` and
`local_port` under a handler for `InvalidStateError` only, and an exception of theirs ends the owner
with the future pending.
-/
import Nwep.Lib.Report
import Nwep.Runtime.ConnectAsync.Lifecycle
import Nwep.Runtime.Serve.Lifecycle
import Nwep.Runtime.Stream.Lifecycle

namespace Nwep.Runtime

open Lib

/-! ## The server -/

namespace Serve

variable {ν α μ ε : Type*} {cfg : Config α} {s s' : State ν α μ ε} {a : Act ν α μ ε} {tr : List (Act ν α μ ε)}

/-- Where the owner stands with its report at the statement. -/
def Pc.duty : Pc ν α μ ε → Duty (ν × Nat) (Exc ε)
  | .build | .attach | .bootstrap | .nodeId | .localPort _ => .trying
  | .giveUp e | .report e => .failing e
  | .publish id port => .holding (id, port)
  | .abandon => .refused
  | .finished => .finished
  | _ => .serving

/-- The exceptions of start-up, and the cancellation of the coroutine. -/
def Act.marks : Act ν α μ ε → List (Mark (Exc ε))
  | .call (.build (.error e)) | .call (.attach (.error e)) | .call (.bootstrap _ (.error e))
  | .call (.nodeId (.error e)) | .call (.localPort (.error e)) => [.raised (.raised e)]
  | .cancelServe => [.cancelled]
  | _ => []

/-- The run read this node id and this port. -/
def Fetched (tr : List (Act ν α μ ε)) (v : ν × Nat) : Prop :=
  .call (.nodeId (.ok v.1)) ∈ tr ∧ .call (.localPort (.ok v.2)) ∈ tr

theorem fetched_append (tr : List (Act ν α μ ε)) (a : Act ν α μ ε) (v : ν × Nat) (h : Fetched tr v) :
    Fetched (tr ++ [a]) v := ⟨List.mem_append_left _ h.1, List.mem_append_left _ h.2⟩

/-- What the coroutine has been told by the end of the run `tr`. -/
def Informed (tr : List (Act ν α μ ε)) (s : State ν α μ ε) : Prop :=
  Reported (Fetched tr) (tr.flatMap Act.marks) s.handoff

/-- `node_id` and `local_port` raise only once the future has been cancelled. -/
def Reports (s : State ν α μ ε) : Act ν α μ ε → Prop
  | .call (.nodeId (.error _)) | .call (.localPort (.error _)) => s.handoff.ready ≠ .pending
  | _ => True

@[simp] theorem closing_duty : (closing cfg : Pc ν α μ ε).duty = .serving := by unfold closing; split <;> rfl

@[simp] theorem dispatch_duty (c : Cmd (Command ν)) : (dispatch c : Pc ν α μ ε).duty = .serving := by
  unfold dispatch; split <;> rfl

theorem blocking_marks {timeout : ℚ} {b : Blocking} {k : Call ν α μ ε} {x : Blocked α ε}
    (h : b.next timeout k = some x) : (Act.call k).marks = [] := by
  unfold Blocking.next at h
  split at h <;> first
    | rfl
    | cases h

theorem fails_marks {p : Pc ν α μ ε} {k : Call ν α μ ε} (h : p.fails k = true) :
    p.duty = .serving ∧ (Act.call k).marks = [] := by
  unfold Pc.fails at h
  split at h <;> first
    | exact ⟨rfl, rfl⟩
    | cases h

theorem discharge (hr : Reports s a) (hid : ∀ id, s.pc = .localPort id → .call (.nodeId (.ok id)) ∈ tr)
    (h : Step cfg s a s') :
    Discharge (Fetched (tr ++ [a])) s.pc.duty s.handoff a.marks s'.pc.duty s'.handoff := by
  cases h with
  | @call k p hn =>
    rw [note_handoff]
    generalize hp : s.pc = pc at hn
    cases hn with
    | buildFail | attachFail | bootstrapFail => exact .raise
    | nodeIdFail | localPortFail => exact .escape hr
    | @localPort id port =>
      exact .hold ⟨List.mem_append_left _ (hid id hp), List.mem_append_right _ (List.mem_singleton_self _)⟩
    | blocked hb | resolved hb | unresolved hb => rw [blocking_marks hb]; exact .rest
    | fail hf => rw [(fails_marks hf).1, (fails_marks hf).2, closing_duty]; exact .rest
    | _ => exact .rest
  | giveUp hp => rw [hp]; exact .rest
  | report hp => rw [hp]; exact .report
  | publish hp hpend => rw [hp]; exact .publish hpend
  | publishLate hp hpend => rw [hp]; exact .late hpend
  | abandon hp => rw [hp]; exact .withdraw
  | serverClose hp => rw [hp]; exact .finish
  | checkStop hp _ | rejectClosed hp _ => rw [hp, closing_duty]; exact .rest
  | take hp _ => rw [hp, dispatch_duty]; exact .rest
  | check hp _ | serviced hp _ | resolve hp _ | resolveClosed hp _ | reject hp _ | dhtClose hp => rw [hp]; exact .rest
  | resume hres => exact .resume hres
  | cancelServe hc => exact .cancel hc
  | _ => exact .rest

/-- The node id that the owner holds was read in the run. -/
theorem held_read (hid : ∀ id, s.pc = .localPort id → .call (.nodeId (.ok id)) ∈ tr) (h : Step cfg s a s') :
    ∀ id, s'.pc = .localPort id → .call (.nodeId (.ok id)) ∈ tr ++ [a] := by
  have hkeep {id : ν} (hp : s.pc = .localPort id) : .call (.nodeId (.ok id)) ∈ tr ++ [a] :=
    List.mem_append_left _ (hid id hp)
  intro id hp
  cases h with
  | @call k p hn =>
    generalize s.pc = pc at hn
    change p = .localPort id at hp
    cases hn with
    | nodeId => cases hp; exact List.mem_append_right _ (List.mem_singleton_self _)
    | fail _ => have := congrArg Pc.duty hp; rw [closing_duty] at this; cases this
    | _ => cases hp
  | take | checkStop | rejectClosed =>
    have := congrArg Pc.duty hp
    simp only [dispatch_duty, closing_duty] at this
    cases this
  | giveUp | report | publish | publishLate | abandon | check | serviced | resolve | resolveClosed | reject
  | dhtClose | serverClose => cases hp
  | _ => exact hkeep hp

/-- On a run in which the two reads raise on a cancelled future at most, a finished owner has informed the
coroutine. -/
theorem informed {as : List (Act ν α μ ε)} (h : runs (step cfg) init as = some s)
    (hm : Meets (step cfg) Reports init as) (hf : s.pc = .finished) : Informed as s := by
  refine reported_of_meets (K := fun tr s => ∀ id, s.pc = .localPort id → .call (.nodeId (.ok id)) ∈ tr)
    (fun s => s.pc.duty) fetched_append (fun tr s a s' hid hr h => ?_) init_owes ?_ hm h (congrArg Pc.duty hf)
  · exact ⟨discharge hr hid (step_cases h), held_read hid (step_cases h)⟩
  · rintro id ⟨⟩

theorem reports_of_marks (h : a.marks = []) : Reports s a := by
  unfold Reports
  split
  · cases h
  · cases h
  · trivial

/-- A read that raises on a pending future ends the owner with the future pending. -/
theorem uninformed (hr : ¬ Reports s a) (h : Step cfg s a s') : s'.pc = .finished ∧ s'.handoff.ready = .pending := by
  cases h with
  | @call k p hn =>
    rw [note_handoff]
    generalize s.pc = pc at hn
    cases hn with
    | nodeIdFail | localPortFail => exact ⟨rfl, not_not.1 hr⟩
    | blocked hb | resolved hb | unresolved hb => exact absurd (reports_of_marks (blocking_marks hb)) hr
    | fail hf => exact absurd (reports_of_marks (fails_marks hf).2) hr
    | _ => exact absurd trivial hr
  | _ => exact absurd trivial hr

/-- In every state of a run a finished owner has informed the coroutine, if and only if the two reads raise
on a cancelled future at most. -/
theorem informed_iff {as : List (Act ν α μ ε)} (h : runs (step cfg) init as = some s) :
    (∀ bs t, bs <+: as → runs (step cfg) init bs = some t → t.pc = .finished → Informed bs t) ↔
      Meets (step cfg) Reports init as := by
  constructor
  · intro hp
    refine meets_of_prefixes (P := fun s => s.pc = .finished → s.handoff.ready ≠ .pending) ?_ as h ?_
    · intro s a s' hr h hne
      obtain ⟨hf, hpend⟩ := uninformed hr (step_cases h)
      exact hne hf hpend
    · exact fun bs u hb hr hf => (hp bs u hb hr hf).settled.ne_pending
  · exact fun hm bs t hb hr hf => informed hr (hm.upTo hb) hf

end Serve

/-! ## The client -/

namespace ConnectAsync

variable {ε ρ : Type*} {s s' : State ε ρ} {a : Act ε ρ} {tr : List (Act ε ρ)}

/-- Where the owner stands with its report at the statement. -/
def Pc.duty : Pc ε ρ → Duty Unit (Exc ε)
  | .connect => .trying
  | .report e => .failing e
  | .publish => .holding ()
  | .abandon => .refused
  | .finished => .finished
  | _ => .serving

/-- The exception of the connect, and the cancellation of the coroutine. -/
def Act.marks : Act ε ρ → List (Mark (Exc ε))
  | .connect (.error e) => [.raised (.raised e)]
  | .cancelConnect => [.cancelled]
  | _ => []

/-- The connection is up. -/
def Connected (tr : List (Act ε ρ)) (u : Unit) : Prop := .connect (.ok u) ∈ tr

theorem connected_append (tr : List (Act ε ρ)) (a : Act ε ρ) (u : Unit) (h : Connected tr u) :
    Connected (tr ++ [a]) u := List.mem_append_left _ h

/-- What the coroutine has been told by the end of the run `tr`. -/
def Informed (tr : List (Act ε ρ)) (s : State ε ρ) : Prop := Reported (Connected tr) (tr.flatMap Act.marks) s.handoff

theorem discharge (h : Step s a s') :
    Discharge (Connected (tr ++ [a])) s.pc.duty s.handoff a.marks s'.pc.duty s'.handoff := by
  cases h with
  | connectOk hp => rw [hp]; exact .hold (List.mem_append_right _ (List.mem_singleton_self _))
  | connectFail hp => rw [hp]; exact .raise
  | report hp => rw [hp]; exact .report
  | publish hp hr => rw [hp]; exact .publish hr
  | publishLate hp hr => rw [hp]; exact .late hr
  | abandon hp => rw [hp]; exact .withdraw
  | close hp | drainClosed hp _ => rw [hp]; exact .finish
  | take hp _ | takeStop hp _ | timeout hp _ | tickOk hp | tickFail hp | sendOk hp | sendFail hp | resolve hp _
  | resolveClosed hp _ | reject hp _ | rejectClosed hp _ | drain hp _ | drainStop hp _ | drainEmpty hp _
  | drainReject hp _ => rw [hp]; exact .rest
  | resume hr => exact .resume hr
  | cancelConnect hc => exact .cancel hc
  | _ => exact .rest

/-- A finished owner has informed the coroutine. -/
theorem informed {as : List (Act ε ρ)} (h : runs step init as = some s) (hf : s.pc = .finished) : Informed as s :=
  reported_of_meets (K := fun _ _ => True) (fun s => s.pc.duty) connected_append
    (fun _ _ _ _ _ _ h => ⟨discharge (step_cases h), trivial⟩) init_owes trivial
    (meets_of_forall (C := fun _ _ => True) (fun _ _ => trivial) init as) h (congrArg Pc.duty hf)

end ConnectAsync

/-! ## The stream -/

namespace Stream

variable {σ κ ε : Type*} {s s' : State σ κ ε} {a : Act σ κ ε} {tr : List (Act σ κ ε)}

/-- Where the owner stands with its report at the statement. -/
def Pc.duty : Pc σ ε → Duty (σ × Headers) ε
  | .connect | .openStream | .response | .status | .headers _ => .trying
  | .giveUp e | .report e => .failing e
  | .publish v h => .holding (v, h)
  | .abandon | .abandonClient => .refused
  | .finished => .finished
  | _ => .serving

/-- The exceptions of start-up, and the cancellation of the coroutine. -/
def Act.marks : Act σ κ ε → List (Mark ε)
  | .call (.connect (.error e)) | .call (.openStream (.error e)) | .call (.response (.error e))
  | .call (.status (.error e)) | .call (.headers (.error e)) => [.raised e]
  | .cancelStream => [.cancelled]
  | _ => []

/-- The run read this status and these headers. -/
def Fetched (tr : List (Act σ κ ε)) (v : σ × Headers) : Prop :=
  .call (.status (.ok v.1)) ∈ tr ∧ .call (.headers (.ok v.2)) ∈ tr

theorem fetched_append (tr : List (Act σ κ ε)) (a : Act σ κ ε) (v : σ × Headers) (h : Fetched tr v) :
    Fetched (tr ++ [a]) v := ⟨List.mem_append_left _ h.1, List.mem_append_left _ h.2⟩

/-- What the coroutine has been told by the end of the run `tr`. -/
def Informed (tr : List (Act σ κ ε)) (s : State σ κ ε) : Prop :=
  Reported (Fetched tr) (tr.flatMap Act.marks) s.handoff

@[simp] theorem afterRead_duty (ended : Bool) : (afterRead ended : Pc σ ε).duty = .serving := by
  unfold afterRead; split <;> rfl

theorem discharge (hid : ∀ v, s.pc = .headers v → .call (.status (.ok v)) ∈ tr) (h : Step s a s') :
    Discharge (Fetched (tr ++ [a])) s.pc.duty s.handoff a.marks s'.pc.duty s'.handoff := by
  cases h with
  | @call k p hn =>
    rw [note_handoff]
    generalize hp : s.pc = pc at hn
    cases hn with
    | connectFail | openFail | responseFail | statusFail | headersFail => exact .raise
    | @headers v h =>
      exact .hold ⟨List.mem_append_left _ (hid v hp), List.mem_append_right _ (List.mem_singleton_self _)⟩
    | recvEmpty => rw [afterRead_duty]; exact .rest
    | _ => exact .rest
  | giveUp hp => rw [hp]; exact .rest
  | report hp => rw [hp]; exact .report
  | publish hp hr => rw [hp]; exact .publish hr
  | publishLate hp hr => rw [hp]; exact .late hr
  | abandon hp => rw [hp]; exact .rest
  | abandonClient hp => rw [hp]; exact .withdraw
  | clientClose hp => rw [hp]; exact .finish
  | put hp => rw [hp, afterRead_duty]; exact .rest
  | check hp _ | checkStop hp _ | fail hp | putEnd hp | streamClose hp => rw [hp]; exact .rest
  | resume hr => exact .resume hr
  | cancelStream hc => exact .cancel hc
  | _ => exact .rest

/-- The status that the owner holds was read in the run. -/
theorem held_read (hid : ∀ v, s.pc = .headers v → .call (.status (.ok v)) ∈ tr) (h : Step s a s') :
    ∀ v, s'.pc = .headers v → .call (.status (.ok v)) ∈ tr ++ [a] := by
  have hkeep {v : σ} (hp : s.pc = .headers v) : .call (.status (.ok v)) ∈ tr ++ [a] :=
    List.mem_append_left _ (hid v hp)
  intro v hp
  cases h with
  | @call k p hn =>
    generalize s.pc = pc at hn
    change p = .headers v at hp
    cases hn with
    | status => cases hp; exact List.mem_append_right _ (List.mem_singleton_self _)
    | recvEmpty => have := congrArg Pc.duty hp; rw [afterRead_duty] at this; cases this
    | _ => cases hp
  | put => have := congrArg Pc.duty hp; rw [afterRead_duty] at this; cases this
  | giveUp | report | publish | publishLate | abandon | abandonClient | check | checkStop | fail | putEnd
  | streamClose | clientClose => cases hp
  | _ => exact hkeep hp

/-- A finished owner has informed the coroutine. -/
theorem informed {as : List (Act σ κ ε)} (h : runs step init as = some s) (hf : s.pc = .finished) : Informed as s := by
  refine reported_of_meets (K := fun tr s => ∀ v, s.pc = .headers v → .call (.status (.ok v)) ∈ tr)
    (fun s => s.pc.duty) fetched_append (fun tr s a s' hid _ h => ?_) init_owes ?_
    (meets_of_forall (C := fun _ _ => True) (fun _ _ => trivial) init as) h (congrArg Pc.duty hf)
  · exact ⟨discharge hid (step_cases h), held_read hid (step_cases h)⟩
  · rintro v ⟨⟩

end Stream

/-! ## Every managed terminal -/

variable {ν α μ σ κ ε ρ : Type*}

/-- A finished owner of `_connect_async` or `_stream` has informed its coroutine, in every state of every
run; a finished owner of `_serve` has in every state of a run if and only if `node_id` and
`local_port` raised on a cancelled future at most. -/
theorem startup_informed_iff :
    (∀ (cfg : Serve.Config α) (as : List (Serve.Act ν α μ ε)) (s : Serve.State ν α μ ε),
      runs (Serve.step cfg) Serve.init as = some s →
      ((∀ bs t, bs <+: as → runs (Serve.step cfg) Serve.init bs = some t → t.pc = .finished → Serve.Informed bs t) ↔
        Meets (Serve.step cfg) Serve.Reports Serve.init as)) ∧
    (∀ (as : List (ConnectAsync.Act ε ρ)) (s : ConnectAsync.State ε ρ),
      runs ConnectAsync.step ConnectAsync.init as = some s → s.pc = .finished → ConnectAsync.Informed as s) ∧
    (∀ (as : List (Stream.Act σ κ ε)) (s : Stream.State σ κ ε),
      runs Stream.step Stream.init as = some s → s.pc = .finished → Stream.Informed as s) :=
  ⟨fun _ _ _ h => Serve.informed_iff h, fun _ _ h hf => ConnectAsync.informed h hf,
    fun _ _ h hf => Stream.informed h hf⟩

/-- A server whose coroutine is cancelled while it is built, and whose `local_port` raises then. -/
def cancelledBuild : List (Serve.Act Nat Nat Nat Unit) :=
  [.cancelServe, .call (.build (.ok ())), .call (.nodeId (.ok 5)), .call (.localPort (.error ()))]

/-- A stream whose headers cannot be read. -/
def headersFail : List (Stream.Act Nat Nat Unit) :=
  [.call (.connect (.ok ())), .call (.openStream (.ok ())), .call (.response (.ok ())), .call (.status (.ok 200)),
    .call (.headers (.error ())), .owner, .owner]

theorem startup_informed_iff_failing :
    (∃ s, runs (Serve.step ⟨false, none⟩) Serve.init cancelledBuild = some s ∧ s.pc = .finished ∧
      Serve.Informed cancelledBuild s) ∧
    (∃ s : ConnectAsync.State Unit Nat,
      runs ConnectAsync.step ConnectAsync.init [.connect (.error ()), .owner] = some s ∧
      ConnectAsync.Informed [.connect (.error ()), .owner] s) ∧
    (∃ s, runs Stream.step Stream.init headersFail = some s ∧ Stream.Informed headersFail s) := by
  have ht := startup_informed_iff (ν := Nat) (α := Nat) (μ := Nat) (σ := Nat) (κ := Nat) (ε := Unit) (ρ := Nat)
  refine ⟨⟨_, rfl, rfl, (ht.1 ⟨false, none⟩ cancelledBuild _ rfl).2 ?_ cancelledBuild _ (List.prefix_refl _) rfl rfl⟩,
    ⟨_, rfl, ht.2.1 _ _ rfl rfl⟩, ⟨_, rfl, ht.2.2 headersFail _ rfl rfl⟩⟩
  exact ⟨trivial, trivial, trivial, by rintro ⟨⟩, trivial⟩

/-- A `node_id` that raises once the server is built: the owner has ended, the future is pending, and the
coroutine waits on it with nobody left to settle it. -/
theorem startup_uninformed : ∃ s : Serve.State Nat Nat Nat Unit,
    runs (Serve.step (⟨false, none⟩ : Serve.Config Nat)) Serve.init
      [.call (.build (.ok ())), .call (.nodeId (.error ()))] = some s ∧
    s.pc = .finished ∧ s.handoff.ready = .pending ∧ s.handoff.task = .waiting ∧ s.handoff.resume = none ∧
    ¬ Serve.Informed [.call (.build (.ok ())), .call (.nodeId (.error ()))] s :=
  ⟨_, rfl, rfl, rfl, rfl, rfl, fun h => h.settled.ne_pending rfl⟩

end Nwep.Runtime
