/-
The announcements of the managed server (`ServerBuilder.announce_as`): those of a run are the readings
of the main loop's dht ticks, paced by 60 seconds. The ticks inside `_resolve_blocking` do not count:
while a lookup pumps, no announcement is made.
-/
import Nwep.Lib.Observe
import Nwep.Lib.Pace
import Nwep.Runtime.Serve.Invariant

namespace Nwep.Runtime.Serve

open Lib

variable {ν α μ ε : Type*} {cfg : Config α} {s s' : State ν α μ ε} {a : Act ν α μ ε} {pre : List (Act ν α μ ε)}

/-! ## Announcements -/

/-- `now - last_announce >= 60`. -/
def announceGap : Int := 60

/-- The clock reading of a `dht.tick` of the main loop that returned. -/
def tickReading (s : State ν α μ ε) : Act ν α μ ε → Option Int
  | .call (.dhtTick now (.ok _)) => match s.pc with
    | .dhtTick => some now
    | _ => none
  | _ => none

/-- The clock reading `dht.announce` is called with. -/
def announceReading (s : State ν α μ ε) : Act ν α μ ε → Option Int
  | .call (.announce _) => match s.pc with
    | .announce now => some now
    | _ => none
  | _ => none

/-- The readings of the main loop's dht ticks along a run. -/
def dhtTicks (cfg : Config α) (as : List (Act ν α μ ε)) : List Int := observed (step cfg) tickReading init as

/-- The readings of the announcements made along a run. -/
def announced (cfg : Config α) (as : List (Act ν α μ ε)) : List Int := observed (step cfg) announceReading init as

/-- The announcement the owner is about to make. -/
def Pc.due : Pc ν α μ ε → List Int
  | .announce now => [now]
  | _ => []

theorem tickReading_some {now : Int} (h : tickReading s a = some now) :
    s.pc = .dhtTick ∧ ∃ u, a = .call (.dhtTick now (.ok u)) := by
  unfold tickReading at h
  split at h
  · split at h
    · rename_i hp; cases h; exact ⟨hp, _, rfl⟩
    · cases h
  · cases h

theorem announceReading_some {now : Int} (h : announceReading s a = some now) :
    s.pc = .announce now ∧ ∃ r, a = .call (.announce r) := by
  unfold announceReading at h
  split at h
  · split at h
    · rename_i hp; cases h; exact ⟨hp, _, rfl⟩
    · cases h
  · cases h

@[simp] theorem closing_due : (closing cfg : Pc ν α μ ε).due = [] := by unfold closing; split <;> rfl
@[simp] theorem closing_past : (closing cfg : Pc ν α μ ε).past = true := by unfold closing; split <;> rfl

theorem dispatch_due (c : Cmd (Command ν)) : (dispatch c : Pc ν α μ ε).due = [] := by
  unfold dispatch; split <;> rfl

/-- A call is made before the `finally` block. -/
theorem next_not_past {last : Int} {p p' : Pc ν α μ ε} {k : Call ν α μ ε} (h : Next cfg last p k p') :
    p.past = false := by
  cases h with
  | fail hf => rcases fails_pc hf with rfl | rfl | rfl | ⟨now, rfl⟩ | rfl <;> rfl
  | _ => rfl

/-- An announcement becomes due by a tick of the dht, and is done with by the call. -/
theorem next_due {last : Int} {p p' : Pc ν α μ ε} {k : Call ν α μ ε} (h : Next cfg last p k p') :
    p'.due = p.due ∨ (p = .dhtTick ∧ ∃ now u, k = .dhtTick now (.ok u)) ∨
      ∃ now r, p = .announce now ∧ k = .announce r := by
  cases h with
  | dhtTickDue => exact .inr (.inl ⟨rfl, _, _, rfl⟩)
  | announce => exact .inr (.inr ⟨_, _, rfl, rfl⟩)
  | fail hf =>
    rcases fails_pc hf with rfl | rfl | rfl | ⟨now, rfl⟩ | rfl
    · exact .inl closing_due
    · exact .inl closing_due
    · exact .inl closing_due
    · cases k with
      | announce r => exact .inr (.inr ⟨now, r, rfl, rfl⟩)
      | _ => cases hf
    · exact .inl closing_due
  | _ => exact .inl rfl

/-- The announcements made, and the one about to be made, are the paced ticks; and the owner knows the
last one while it serves. -/
structure Paced (cfg : Config α) (pre : List (Act ν α μ ε)) (s : State ν α μ ε) : Prop where
  calls : announced cfg pre ++ s.pc.due = if cfg.announce.isSome then pace announceGap 0 (dhtTicks cfg pre) else []
  last : s.pc.past = false → s.lastAnnounce = (announced cfg pre).getLastD 0

theorem init_paced : Paced cfg [] (init : State ν α μ ε) where
  calls := by
    show [] = _
    split <;> rfl
  last _ := rfl

/-- A step that neither reads the clock for the dht nor announces. -/
theorem Paced.frame (hr : runs (step cfg) init pre = some s) (hj : Paced cfg pre s) (h : step cfg s a = some s')
    (ht : tickReading s a = none) (ha : announceReading s a = none) (hdue : s'.pc.due = s.pc.due)
    (hlast : s'.lastAnnounce = s.lastAnnounce) (hpast : s'.pc.past = false → s.pc.past = false) :
    Paced cfg (pre ++ [a]) s' := by
  have h1 : dhtTicks cfg (pre ++ [a]) = dhtTicks cfg pre := by
    unfold dhtTicks
    rw [observed_concat hr h, ht, Option.toList_none, List.append_nil]
  have h2 : announced cfg (pre ++ [a]) = announced cfg pre := by
    unfold announced
    rw [observed_concat hr h, ha, Option.toList_none, List.append_nil]
  refine ⟨?_, fun hp => ?_⟩
  · rw [h1, h2, hdue]; exact hj.calls
  · rw [h2, hlast]; exact hj.last (hpast hp)

/-- The dht was ticked at `now`: an announcement follows exactly when it is due. -/
theorem Paced.tick {now : Int} {u : Unit} (hr : runs (step cfg) init pre = some s) (hj : Paced cfg pre s)
    (hp : s.pc = .dhtTick) (h : step cfg s (.call (.dhtTick now (.ok u))) = some s') :
    Paced cfg (pre ++ [.call (.dhtTick now (.ok u))]) s' := by
  have hticks : dhtTicks cfg (pre ++ [.call (.dhtTick now (.ok u))]) = dhtTicks cfg pre ++ [now] := by
    unfold dhtTicks
    rw [observed_concat hr h]
    simp only [tickReading, hp, Option.toList_some]
  have hcalls : announced cfg (pre ++ [.call (.dhtTick now (.ok u))]) = announced cfg pre := by
    unfold announced
    rw [observed_concat hr h]
    simp only [announceReading, Option.toList_none, List.append_nil]
  have hlast := hj.last (by rw [hp]; rfl)
  have hpaced := hj.calls
  rw [hp] at hpaced
  simp only [Pc.due, List.append_nil] at hpaced
  have hnote : s.note (.dhtTick now (.ok u)) = s := by
    unfold State.note
    rw [hp]
  simp only [step, hp, Pc.next, Option.map_some, hnote, Option.some.injEq] at h
  subst h
  refine ⟨?_, fun _ => by rw [hcalls]; exact hlast⟩
  rw [hticks, hcalls]
  cases hann : cfg.announce.isSome with
  | false =>
    rw [hann] at hpaced
    simp only [Bool.false_eq_true, false_and, if_false, Pc.due, List.append_nil] at hpaced ⊢
    exact hpaced
  | true =>
    rw [hann, if_pos rfl] at hpaced
    rw [if_pos rfl, pace_concat, ← hpaced, ← hlast]
    by_cases hd : announceGap ≤ now - s.lastAnnounce
    · rw [if_pos hd, if_pos ⟨rfl, hd⟩]; rfl
    · rw [if_neg hd, if_neg fun hc => hd hc.2]; rfl

/-- The announcement was made: its reading moves from the ones due to the ones made. -/
theorem Paced.announce {now : Int} {r : Except ε Unit} (hr : runs (step cfg) init pre = some s) (hj : Paced cfg pre s)
    (hp : s.pc = .announce now) (h : step cfg s (.call (.announce r)) = some s') :
    Paced cfg (pre ++ [.call (.announce r)]) s' := by
  have hticks : dhtTicks cfg (pre ++ [.call (.announce r)]) = dhtTicks cfg pre := by
    unfold dhtTicks
    rw [observed_concat hr h]
    simp only [tickReading, Option.toList_none, List.append_nil]
  have hcalls : announced cfg (pre ++ [.call (.announce r)]) = announced cfg pre ++ [now] := by
    unfold announced
    rw [observed_concat hr h]
    simp only [announceReading, hp, Option.toList_some]
  have hpaced := hj.calls
  rw [hp] at hpaced
  cases r with
  | error e =>
    simp only [step, hp, Pc.next, Option.map_some, Option.some.injEq] at h
    subst h
    refine ⟨?_, fun hpast => by simp at hpast⟩
    rw [hticks, hcalls, closing_due, List.append_nil]; exact hpaced
  | ok u =>
    simp only [step, hp, Pc.next, State.note, Option.map_some, Option.some.injEq] at h
    subst h
    refine ⟨?_, fun _ => ?_⟩
    · rw [hticks, hcalls]
      simp only [Pc.due, List.append_nil] at hpaced ⊢
      exact hpaced
    · rw [hcalls, List.getLastD_concat]

theorem paced_step (hr : runs (step cfg) init pre = some s) (hj : Paced cfg pre s) (h : step cfg s a = some s') :
    Paced cfg (pre ++ [a]) s' := by
  cases ht : tickReading s a with
  | some now =>
    obtain ⟨hp, u, rfl⟩ := tickReading_some ht
    exact hj.tick hr hp h
  | none =>
    cases ha : announceReading s a with
    | some now =>
      obtain ⟨hp, r, rfl⟩ := announceReading_some ha
      exact hj.announce hr hp h
    | none =>
      have hframe := hj.frame hr h ht ha
      cases step_cases h with
      | @call k p hn =>
        have hlast : (s.note k).lastAnnounce = s.lastAnnounce := by
          unfold State.note
          split <;> first
            | rfl
            | (rename_i hp; simp only [announceReading, hp] at ha; cases ha)
        refine hframe ?_ hlast fun _ => next_not_past hn
        rcases next_due hn with hd | ⟨hp, now, u, rfl⟩ | ⟨now, r, hp, rfl⟩
        · exact hd
        · simp only [tickReading, hp] at ht; cases ht
        · simp only [announceReading, hp] at ha; cases ha
      | giveUp hp | report hp | publish hp _ | publishLate hp _ | abandon hp | check hp _ | serviced hp _
      | resolve hp _ | resolveClosed hp _ | reject hp _ | dhtClose hp | serverClose hp =>
        exact hframe (by rw [hp]; rfl) rfl (by rw [hp]; simp [Pc.past])
      | checkStop hp _ | rejectClosed hp _ => exact hframe (by rw [hp]; exact closing_due) rfl (by simp)
      | take hp _ => exact hframe (by rw [hp]; exact dispatch_due _) rfl fun _ => by rw [hp]; rfl
      | takeStop | resume | cancelServe | put | cancelCommand | shutdown | shutdownJoin | shutdownCancel | runLoop
      | closeLoop => exact hframe rfl rfl id

/-- On every run the announcements are the main loop's dht ticks paced by 60 seconds, from the first
tick a minute after the epoch on: each is at least 60 seconds after the one before, and no tick that is
due goes without, but for the one the owner is about to make. -/
theorem announcements_paced {as : List (Act ν α μ ε)} (h : runs (step cfg) init as = some s) :
    announced cfg as ++ s.pc.due = (if cfg.announce.isSome then pace announceGap 0 (dhtTicks cfg as) else []) ∧
      List.IsChain (fun t u => announceGap ≤ u - t) (0 :: announced cfg as) := by
  have hj : Paced cfg as s := runs_history init_paced (fun _ _ _ _ hr hj h => paced_step hr hj h) h
  refine ⟨hj.calls, ?_⟩
  have hpaced := hj.calls
  split at hpaced
  · have hchain : List.IsChain (fun t u => announceGap ≤ u - t) (0 :: pace announceGap 0 (dhtTicks cfg as)) :=
      pace_spaced 0 _
    rw [← hpaced, ← List.cons_append] at hchain
    exact hchain.left_of_append
  · rw [(List.append_eq_nil_iff.1 hpaced).1]
    exact List.isChain_singleton _

/-- One iteration of the loop with the dht ticked at `now`, up to the decision on the announcement. -/
def turn (now : Int) : List (Act Nat Nat Nat Unit) :=
  [.owner, .owner, .call (.tick (.ok ())), .call (.dhtTick now (.ok ()))]

/-- The rest of the iteration. -/
def rest : List (Act Nat Nat Nat Unit) := [.call (.nextTimeout (.ok none)), .call .wait]

/-- A server that announces itself, three iterations a little under a minute apart. -/
def threeTurns : List (Act Nat Nat Nat Unit) :=
  startUp ++ turn 100 ++ .call (.announce (.ok ())) :: rest ++ turn 159 ++ rest ++ turn 218

theorem announcements_paced_turns : ∃ s, runs (step ⟨true, some 7⟩) init threeTurns = some s ∧
    s.pc.due = [218] ∧ announced ⟨true, some 7⟩ threeTurns ++ s.pc.due = [100, 218] := by
  have h : ∃ s, runs (step ⟨true, some 7⟩) init threeTurns = some s ∧ s.pc.due = [218] := ⟨_, rfl, rfl⟩
  obtain ⟨s, hs, hdue⟩ := h
  exact ⟨s, hs, hdue, (announcements_paced hs).1.trans (by decide)⟩

end Nwep.Runtime.Serve
