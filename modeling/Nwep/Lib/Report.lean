/-
The report a thread owes on the future of a hand-off: it tries, and what it got is published or what
it met is reported, once, unless the waiting task cancels the future first.

`Discharge` lists the moves of the thread and of the task, each with the marks it leaves, and `Owes`
says what the marks so far make of the future at every duty. A thread whose moves are all discharges
settles the future before it has finished. `got a` says that the thread got `a` as its result.
-/
import Nwep.Lib.Handoff
import Nwep.Lib.Run

namespace Lib

/-- Where the thread stands. -/
inductive Duty (α ε : Type*) where
  | trying
  | failing (e : ε) -- an exception to report
  | holding (a : α) -- a result to publish
  | refused -- the future was settled before the publication
  | serving -- the result is published
  | finished
deriving Repr, DecidableEq

/-- What a move leaves behind: an exception that the thread met while trying, or the cancellation of
the task. -/
inductive Mark (ε : Type*) where
  | raised (e : ε)
  | cancelled
deriving Repr, DecidableEq

section

variable {α ε : Type*}

def Mark.toException : Mark ε → Option ε
  | .raised e => some e
  | .cancelled => none

/-- The exceptions among the marks, in order. -/
def exceptions (ms : List (Mark ε)) : List ε := ms.filterMap Mark.toException

@[simp] theorem exceptions_append (ms ns : List (Mark ε)) : exceptions (ms ++ ns) = exceptions ms ++ exceptions ns :=
  List.filterMap_append

/-- One move of the thread or of the task. -/
inductive Discharge (got : α → Prop) : Duty α ε → Handoff α ε → List (Mark ε) → Duty α ε → Handoff α ε → Prop
  | rest {d h} : Discharge got d h [] d h
  | raise {e h} : Discharge got .trying h [.raised e] (.failing e) h
  | hold {a h} : got a → Discharge got .trying h [] (.holding a) h
  | report {e h} : Discharge got (.failing e) h [] .finished { h with ready := (h.ready.setException e).getD h.ready }
  | publish {a} {h : Handoff α ε} : h.ready = .pending →
      Discharge got (.holding a) h [] .serving { h with ready := .result a }
  | late {a} {h : Handoff α ε} : h.ready ≠ .pending → Discharge got (.holding a) h [] .refused h
  | withdraw {h} : Discharge got .refused h [] .finished h
  | finish {h} : Discharge got .serving h [] .finished h
  -- an exception that no handler reports is no loss only once the future is settled
  | escape {e} {h : Handoff α ε} : h.ready ≠ .pending → Discharge got .trying h [.raised e] .finished h
  | resume {d} {h h' : Handoff α ε} : h.resume = some h' → Discharge got d h [] d h'
  | cancel {d} {h h' : Handoff α ε} : h.cancelTask = some h' → Discharge got d h [.cancelled] d h'

/-- How the future is settled in the end: with what the thread got and no exception met, with the one
exception met, or by a cancellation. -/
inductive Settled (got : α → Prop) (ms : List (Mark ε)) : Ready α ε → Prop
  | result {a : α} : got a → exceptions ms = [] → Settled got ms (.result a)
  | failed {e : ε} : exceptions ms = [e] → Settled got ms (.failed e)
  | cancelled : Mark.cancelled ∈ ms → Settled got ms .cancelled

/-- The future is still to be settled, or cancelled. -/
def Unsettled (ms : List (Mark ε)) (r : Ready α ε) : Prop := r = .pending ∨ r = .cancelled ∧ Mark.cancelled ∈ ms

/-- What the marks so far make of the future at each duty. -/
def Owes (got : α → Prop) (ms : List (Mark ε)) (r : Ready α ε) : Duty α ε → Prop
  | .trying => exceptions ms = [] ∧ Unsettled ms r
  | .failing e => exceptions ms = [e] ∧ Unsettled ms r
  | .holding a => exceptions ms = [] ∧ Unsettled ms r ∧ got a
  | .refused => r = .cancelled ∧ Mark.cancelled ∈ ms
  | .serving => exceptions ms = [] ∧ ∃ a, r = .result a ∧ got a
  | .finished => Settled got ms r

variable {got : α → Prop} {ms ns : List (Mark ε)} {r : Ready α ε} {d d' : Duty α ε} {h h' : Handoff α ε}

theorem Settled.ne_pending (hs : Settled got ms r) : r ≠ .pending := by
  cases hs <;> simp

theorem Unsettled.append (hu : Unsettled ms r) (ns : List (Mark ε)) : Unsettled (ms ++ ns) r :=
  hu.imp id fun ⟨hr, hm⟩ => ⟨hr, List.mem_append_left ns hm⟩

/-- An unsettled future that is not pending was cancelled. -/
theorem Unsettled.gone (hu : Unsettled ms r) (hr : r ≠ .pending) : r = .cancelled ∧ Mark.cancelled ∈ ms :=
  hu.resolve_left hr

theorem Handoff.resume_ready (hr : h.resume = some h') : h'.ready = h.ready := by
  unfold resume at hr
  split at hr <;> cases hr <;> rfl

/-- A task that waits on a settled future can go on, and then waits no more. -/
theorem Handoff.resume_settled (ht : h.task = .waiting) (hr : h.ready ≠ .pending) :
    ∃ h', h.resume = some h' ∧ h'.task ≠ .waiting := by
  obtain ⟨r, t⟩ := h
  subst ht
  cases r with
  | pending => exact absurd rfl hr
  | cancelled | result a | failed e => exact ⟨_, rfl, by simp⟩

theorem Owes.mono {got' : α → Prop} (hg : ∀ a, got a → got' a) (ho : Owes got ms r d) : Owes got' ms r d := by
  cases d with
  | trying | failing | refused => exact ho
  | holding a => exact ⟨ho.1, ho.2.1, hg a ho.2.2⟩
  | serving =>
    obtain ⟨he, a, hr, ha⟩ := ho
    exact ⟨he, a, hr, hg a ha⟩
  | finished =>
    cases ho with
    | result ha he => exact .result (hg _ ha) he
    | failed he => exact .failed he
    | cancelled hm => exact .cancelled hm

/-- The cancellation of the task is no settlement of its own: what was settled stays. -/
theorem Owes.cancel (ho : Owes got ms r d) : Owes got (ms ++ [.cancelled]) r.cancel d := by
  have hm : Mark.cancelled ∈ ms ++ [.cancelled] := List.mem_append_right _ (List.mem_singleton_self _)
  have hx : exceptions (ms ++ [.cancelled]) = exceptions ms := by simp [exceptions, Mark.toException]
  have hu (h : Unsettled ms r) : Unsettled (ms ++ [.cancelled]) r.cancel := by
    rcases h with rfl | ⟨rfl, -⟩ <;> exact .inr ⟨rfl, hm⟩
  cases d with
  | trying | failing => exact ⟨hx ▸ ho.1, hu ho.2⟩
  | holding => exact ⟨hx ▸ ho.1, hu ho.2.1, ho.2.2⟩
  | refused => obtain ⟨rfl, -⟩ := ho; exact ⟨rfl, hm⟩
  | serving => obtain ⟨he, a, rfl, ha⟩ := ho; exact ⟨hx ▸ he, a, rfl, ha⟩
  | finished =>
    cases ho with
    | result ha he => exact .result ha (hx ▸ he)
    | failed he => exact .failed (hx ▸ he)
    | cancelled _ => exact .cancelled hm

theorem Discharge.owes (hd : Discharge got d h ns d' h') (ho : Owes got ms h.ready d) :
    Owes got (ms ++ ns) h'.ready d' := by
  cases hd with
  | rest => rw [List.append_nil]; exact ho
  | resume hr => rw [List.append_nil, Handoff.resume_ready hr]; exact ho
  | cancel hc =>
    obtain ⟨-, rfl⟩ := Handoff.cancelTask_some hc
    exact ho.cancel
  | @raise e =>
    refine ⟨?_, ho.2.append _⟩
    rw [exceptions_append, ho.1]; rfl
  | hold ha => rw [List.append_nil]; exact ⟨ho.1, ho.2, ha⟩
  | report =>
    rw [List.append_nil]
    obtain ⟨he, hr | ⟨hr, hm⟩⟩ := ho
    · rw [hr]; exact .failed he
    · rw [hr]; exact .cancelled hm
  | publish => rw [List.append_nil]; exact ⟨ho.1, _, rfl, ho.2.2⟩
  | late hr => rw [List.append_nil]; exact ho.2.1.gone hr
  | withdraw =>
    rw [List.append_nil]
    obtain ⟨hr, hm⟩ := ho
    rw [hr]; exact .cancelled hm
  | finish =>
    rw [List.append_nil]
    obtain ⟨he, a, hr, ha⟩ := ho
    rw [hr]; exact .result ha he
  | escape hr =>
    obtain ⟨hc, hm⟩ := ho.2.gone hr
    rw [hc]; exact .cancelled (List.mem_append_left _ hm)

/-- The future is settled, and a task that waits on it can go on. -/
structure Reported (got : α → Prop) (ms : List (Mark ε)) (h : Handoff α ε) : Prop where
  settled : Settled got ms h.ready
  resumes : h.task = .waiting → ∃ h', h.resume = some h' ∧ h'.task ≠ .waiting

theorem Owes.reported (ho : Owes got ms h.ready .finished) : Reported got ms h :=
  ⟨ho, fun ht => Handoff.resume_settled ht (Settled.ne_pending ho)⟩

theorem init_owes : Owes got [] (Handoff.init : Handoff α ε).ready .trying := ⟨rfl, .inl rfl⟩

/-! ## Runs -/

variable {σ κ : Type*} {step : σ → κ → Option σ} {C : σ → κ → Prop} {got : List κ → α → Prop}
  {marks : κ → List (Mark ε)} {hand : σ → Handoff α ε} {K : List κ → σ → Prop} {s t : σ}

/-- Where every step discharges, given what `K` says of the run so far, a run that ends the thread has
settled the future. -/
theorem reported_of_meets (duty : σ → Duty α ε) (hgot : ∀ tr k a, got tr a → got (tr ++ [k]) a)
    (hstep : ∀ tr s k s', K tr s → C s k → step s k = some s' →
      Discharge (got (tr ++ [k])) (duty s) (hand s) (marks k) (duty s') (hand s') ∧ K (tr ++ [k]) s')
    (hi : Owes (got []) [] (hand s).ready (duty s)) (hk : K [] s) {as : List κ} (hm : Meets step C s as)
    (h : runs step s as = some t) (hd : duty t = .finished) : Reported (got as) (as.flatMap marks) (hand t) := by
  have ho := meets_trace (J := fun tr s => Owes (got tr) (tr.flatMap marks) (hand s).ready (duty s) ∧ K tr s)
    (fun tr s k s' ho hc h => ?_) [] as ⟨hi, hk⟩ hm h
  · have howes := ho.1
    rw [List.nil_append, hd] at howes
    exact howes.reported
  · obtain ⟨hdis, hk'⟩ := hstep tr s k s' ho.2 hc h
    rw [List.flatMap_append, List.flatMap_singleton]
    exact ⟨hdis.owes (ho.1.mono (hgot tr k)), hk'⟩

end

end Lib
