/-
The lifecycle of the managed stream's owner thread: the client and the stream it opens and closes,
and its way out when the awaiting coroutine ends without the `AsyncStream`.

The dedicated client is closed once on every path. The stream on it is closed too, unless its leading
frame could not be read, when the owner closes the connection only; and the leading response itself
is left to fall out of scope.
-/
import Nwep.Runtime.Stream.Invariant

namespace Nwep.Runtime.Stream

open Lib

variable {σ κ ε : Type*} {s s' : State σ κ ε} {a : Act σ κ ε} {p pc : Pc σ ε} {k : Call σ κ ε}

/-! ## The handles -/

/-- What the owner did with its client by the statement. -/
def Pc.client : Pc σ ε → Custody
  | .connect => .unopened
  | .report _ | .finished => .done
  | _ => .opened

/-- What the owner did with its stream by the statement. -/
def Pc.stream : Pc σ ε → Custody
  | .connect | .openStream | .giveUp _ | .report _ => .unopened
  | .abandonClient | .clientClose | .finished => .done
  | _ => .opened

def ClientOk (s : State σ κ ε) : Prop := s.client.As s.pc.client

def StreamOk (s : State σ κ ε) : Prop := s.stream.As s.pc.stream

/-- The leading frame of an opened stream cannot be read. -/
def Pc.strands : Pc σ ε → Call σ κ ε → Bool
  | .response, .response (.error _) | .status, .status (.error _) | .headers _, .headers (.error _) => true
  | _, _ => false

/-- The leading frame of an opened stream is read. -/
def Tidy (s : State σ κ ε) : Act σ κ ε → Prop
  | .call k => s.pc.strands k = false
  | _ => True

/-- The owner gave up with its stream open. -/
def Leaked (s : State σ κ ε) : Prop := ((∃ e, s.pc = .giveUp e ∨ s.pc = .report e) ∨ s.pc = .finished) ∧ s.stream.Live

@[simp] theorem afterRead_client (ended : Bool) : (afterRead ended : Pc σ ε).client = .opened := by cases ended <;> rfl

@[simp] theorem afterRead_stream (ended : Bool) : (afterRead ended : Pc σ ε).stream = .opened := by cases ended <;> rfl

/-! ### Steps -/

theorem clientOk_step (hk : ClientOk s) (h : Step s a s') : ClientOk s' := by
  unfold ClientOk at hk ⊢
  cases h with
  | call hn =>
    unfold State.note
    generalize s.pc = pc at hk hn
    cases hn with
    | connect => exact hk.acquire
    | connectFail => exact hk.skip
    | recvEmpty => simp only [afterRead_client]; exact hk
    | _ => exact hk
  | giveUp hp | abandonClient hp | clientClose hp => rw [hp] at hk; exact hk.close
  | put hp => rw [hp] at hk; simp only [afterRead_client]; exact hk
  | report hp | publish hp _ | publishLate hp _ | abandon hp | check hp _ | checkStop hp _ | fail hp | putEnd hp
  | streamClose hp => rw [hp] at hk; exact hk
  | resume | cancelStream | recv | start | take | deliver | cancelRecv | aclose | acloseJoin | acloseCancel => exact hk

theorem streamOk_step (hk : StreamOk s) (hc : Tidy s a) (h : Step s a s') : StreamOk s' := by
  unfold StreamOk at hk ⊢
  cases h with
  | call hn =>
    unfold State.note
    unfold Tidy at hc
    generalize s.pc = pc at hk hn hc
    cases hn with
    | openStream => exact hk.acquire
    | responseFail | statusFail | headersFail => cases hc
    | recvEmpty => simp only [afterRead_stream]; exact hk
    | _ => exact hk
  | report hp => rw [hp] at hk; exact hk.skip
  | abandon hp | streamClose hp => rw [hp] at hk; exact hk.close
  | put hp => rw [hp] at hk; simp only [afterRead_stream]; exact hk
  | giveUp hp | publish hp _ | publishLate hp _ | abandonClient hp | check hp _ | checkStop hp _ | fail hp | putEnd hp
  | clientClose hp => rw [hp] at hk; exact hk
  | resume | cancelStream | recv | start | take | deliver | cancelRecv | aclose | acloseJoin | acloseCancel => exact hk

theorem leaked_step (hl : Leaked s) (h : Step s a s') : Leaked s' := by
  obtain ⟨hp, hl⟩ := hl
  cases h with
  | call hn =>
    rcases hp with ⟨e, hp | hp⟩ | hp <;> rw [hp] at hn <;> cases hn
  | giveUp | report => exact ⟨by simp, hl⟩
  | publish hp' _ | publishLate hp' _ | abandon hp' | abandonClient hp' | check hp' _ | checkStop hp' _ | put hp'
  | fail hp' | putEnd hp' | streamClose hp' | clientClose hp' =>
    rcases hp with ⟨e, hp | hp⟩ | hp <;> rw [hp] at hp' <;> cases hp'
  | resume | cancelStream | recv | start | take | deliver | cancelRecv | aclose | acloseJoin | acloseCancel =>
    exact ⟨hp, hl⟩

theorem tidy_break (hk : StreamOk s) (hc : ¬ Tidy s a) (h : Step s a s') : Leaked s' := by
  cases h with
  | call hn =>
    unfold StreamOk at hk
    unfold Tidy at hc
    unfold State.note
    generalize s.pc = pc at hk hn hc
    cases hn with
    | responseFail | statusFail | headersFail => exact ⟨.inl ⟨_, .inl rfl⟩, Handle.As.live hk⟩
    | _ => exact absurd rfl hc
  | _ => exact absurd trivial hc

/-- The leading response is never closed by the owner. -/
theorem leading_step (hl : s.leading.closes = 0) (h : Step s a s') : s'.leading.closes = 0 := by
  cases h with
  | call =>
    unfold State.note
    split <;> exact hl
  | _ => exact hl

/-- A finished owner closed its client exactly once; it closed the stream it opened exactly once if
and only if the leading frame was read; and it closed no response. -/
theorem handles_released {as : List (Act σ κ ε)} (h : runs step init as = some s) (hf : s.pc = .finished) :
    s.client.Released ∧ (s.stream.Released ↔ Meets step Tidy init as) ∧ s.leading.closes = 0 := by
  have hclient : ClientOk s := Lib.runs_inv (fun _ _ _ hi h => clientOk_step hi (step_cases h)) as
    (show ClientOk (init : State σ κ ε) from rfl) h
  have hleading : s.leading.closes = 0 := Lib.runs_inv (I := fun s => s.leading.closes = 0)
    (fun _ _ _ hi h => leading_step hi (step_cases h)) as rfl h
  unfold ClientOk at hclient
  rw [hf] at hclient
  refine ⟨hclient, ?_, hleading⟩
  rcases meets_or_broken (I := StreamOk) (B := Leaked) (fun _ _ _ hi hc h => streamOk_step hi hc (step_cases h))
    (fun _ _ _ hi hc h => tidy_break hi hc (step_cases h)) (fun _ _ _ hb h => leaked_step hb (step_cases h))
    as (show StreamOk (init : State σ κ ε) from rfl) h with ⟨hm, hk⟩ | ⟨hm, -, hl⟩
  · unfold StreamOk at hk
    rw [hf] at hk
    exact ⟨fun _ => hm, fun _ => hk⟩
  · exact ⟨fun hr => absurd hr hl.not_released, fun h => absurd h hm⟩

/-! ## The way out -/

/-- The labels of the owner thread. -/
def Act.isOwner : Act σ κ ε → Bool
  | .call _ | .owner => true
  | _ => false

/-- In the loop that reads the body until the stop is set or the stream ends. -/
def Pc.looping : Pc σ ε → Bool
  | .peerPubkey | .check | .recv | .put _ false => true
  | _ => false

/-- The coroutine is not cancelled while the owner reads the body already. -/
def Heard (s : State σ κ ε) : Act σ κ ε → Prop
  | .cancelStream => s.pc.looping = false
  | _ => True

/-- The owner ended and closed its client, if it had one. -/
def Closed (s : State σ κ ε) : Prop := s.pc = .finished ∧ s.client.Released

/-- Whenever the coroutine ended without the `AsyncStream`, the owner does not read the body. -/
def NotLooping (s : State σ κ ε) : Prop := s.handoff.Dropped → s.pc.looping = false

/-- The steps to the end of a departing owner. -/
def Pc.rank : Pc σ ε → ℕ
  | .connect => 8
  | .openStream => 7
  | .response => 6
  | .status | .put _ true => 5
  | .headers _ | .verify => 4
  | .publish _ _ | .fail _ | .putEnd => 3
  | .abandon | .giveUp _ | .streamClose => 2
  | .abandonClient | .report _ | .clientClose => 1
  | _ => 0

/-- Where the owner stands when the coroutine ended without the `AsyncStream`, and it was heard. -/
structure Departing (s : State σ κ ε) : Prop where
  inv : Inv s
  client : ClientOk s
  dropped : s.handoff.Dropped
  away : s.pc.looping = false

theorem looping_serving (h : pc.looping = true) : pc.serving = true := by
  unfold Pc.looping at h
  split at h <;> first
    | rfl
    | cases h

/-- A departing owner steps towards its end, whatever the others do. -/
theorem departing_step (hj : Departing s) (h : Step s a s') :
    Departing s' ∧ s'.pc.rank + (if a.isOwner then 1 else 0) ≤ s.pc.rank := by
  have hk := clientOk_step hj.client h
  have hi := inv_step hj.inv h
  have haway := hj.away
  cases h with
  | @call k p hn =>
    have hdrop : (s.note k).handoff.Dropped := by rw [note_handoff]; exact hj.dropped
    generalize s.pc = pc at hn haway
    cases hn with
    | recv | recvEmpty | recvFail | peerPubkey | peerFail => cases haway
    | _ => exact ⟨⟨hi, hk, hdrop, rfl⟩, by simp [Pc.rank, Act.isOwner]⟩
  | @put chunk ended hp =>
    rw [hp] at haway
    cases ended with
    | true => exact ⟨⟨hi, hk, hj.dropped, rfl⟩, by simp [hp, afterRead, Pc.rank, Act.isOwner]⟩
    | false => cases haway
  | giveUp hp | report hp | publishLate hp _ | abandon hp | abandonClient hp | fail hp | putEnd hp | streamClose hp
  | clientClose hp => exact ⟨⟨hi, hk, hj.dropped, rfl⟩, by simp [hp, Pc.rank, Act.isOwner]⟩
  | publish _ hr => exact absurd hr (hj.inv.handoff.dropped_settled hj.dropped)
  | check hp _ | checkStop hp _ => rw [hp] at haway; cases haway
  | resume hr => exact absurd (Handoff.resume_waiting hr) hj.dropped.not_waiting
  | cancelStream hc => exact absurd (Handoff.cancelTask_some hc).1 hj.dropped.not_waiting
  | recv | start | take | deliver | cancelRecv | aclose | acloseJoin | acloseCancel =>
    exact ⟨⟨hi, hk, hj.dropped, haway⟩, Nat.le_refl _⟩

/-- A departing owner can always step, until it ended with its client closed. -/
theorem departing_next [Inhabited σ] (hj : Departing s) :
    Closed s ∨ ∃ a s', Act.isOwner a = true ∧ step s a = some s' := by
  have haway := hj.away
  cases hp : s.pc with
  | finished =>
    have hk := hj.client
    unfold ClientOk at hk
    rw [hp] at hk; exact .inl ⟨hp, hk⟩
  | connect => exact .inr ⟨.call (.connect (.ok ())), _, rfl, by simp only [step, hp, Pc.next]; rfl⟩
  | openStream => exact .inr ⟨.call (.openStream (.ok ())), _, rfl, by simp only [step, hp, Pc.next]; rfl⟩
  | response => exact .inr ⟨.call (.response (.ok ())), _, rfl, by simp only [step, hp, Pc.next]; rfl⟩
  | status => exact .inr ⟨.call (.status (.ok default)), _, rfl, by simp only [step, hp, Pc.next]; rfl⟩
  | headers v => exact .inr ⟨.call (.headers (.ok [])), _, rfl, by simp only [step, hp, Pc.next]; rfl⟩
  | verify => exact .inr ⟨.call (.verify (.ok ())), _, rfl, by simp only [step, hp, Pc.next]; rfl⟩
  | giveUp e | report e | abandon | abandonClient | put chunk ended | fail e | putEnd | streamClose | clientClose =>
    exact .inr ⟨.owner, _, rfl, by simp only [step, ownerStep, hp]; rfl⟩
  | publish v h =>
    have hr := (Ready.setResult_none (a := (v, h))).2 (hj.inv.handoff.dropped_settled hj.dropped)
    exact .inr ⟨.owner, _, rfl, by simp only [step, ownerStep, hp, hr]; rfl⟩
  | peerPubkey | check | recv => rw [hp] at haway; cases haway

theorem notLooping_step (hi : Inv s) (hn : NotLooping s) (hc : Heard s a) (h : Step s a s') : NotLooping s' := by
  intro hd
  cases h with
  | @call k p hnx =>
    simp only [note_handoff] at hd
    have haway := hn hd
    generalize s.pc = pc at hnx haway
    cases hnx with
    | recv | recvEmpty | peerPubkey => cases haway
    | _ => rfl
  | publish _ hr => exact absurd hr (hi.handoff.dropped_settled hd)
  | @put chunk ended hp =>
    have haway := hn hd
    rw [hp] at haway
    cases ended with
    | true => rfl
    | false => cases haway
  | resume hr =>
    have hp := Handoff.resume_dropped hr hd
    by_contra hs
    exact hp (hi.serving (looping_serving (by simpa using hs)))
  | cancelStream => exact hc
  | giveUp | report | publishLate | abandon | abandonClient | checkStop | fail | putEnd | streamClose | clientClose =>
    rfl
  | check hp _ =>
    have := hn hd
    rw [hp] at this; cases this
  | recv | start | take | deliver | cancelRecv | aclose | acloseJoin | acloseCancel => exact hn hd

/-- On a run whose cancellations are heard, a coroutine that ended without the `AsyncStream` left an
owner that never reads the body again, ends after at most `rank` steps of its own, and closes its
client. -/
theorem owner_leaves [Inhabited σ] {as : List (Act σ κ ε)} (h : runs step init as = some s)
    (hm : Meets step Heard init as) (hd : s.handoff.Dropped) :
    Leaves step (fun _ _ => True) Act.isOwner (fun t => t.pc.looping = true) Closed s.pc.rank s := by
  have hk : Inv s ∧ ClientOk s ∧ NotLooping s :=
    meets_inv (I := fun s => Inv s ∧ ClientOk s ∧ NotLooping s)
      (fun s a s' ⟨hi, hk, hn⟩ hc h => ⟨inv_step hi (step_cases h), clientOk_step hk (step_cases h),
        notLooping_step hi hn hc (step_cases h)⟩)
      as ⟨init_inv, rfl, fun _ => rfl⟩ hm h
  obtain ⟨hi, hk, hn⟩ := hk
  exact leaves_of_rank Departing (fun s => s.pc.rank)
    (fun s a s' hj _ h => departing_step hj (step_cases h)) (fun s hj hs => by rw [hj.away] at hs; cases hs)
    (fun s hj => departing_next hj) ⟨hi, hk, hd, hn hd⟩

end Nwep.Runtime.Stream
