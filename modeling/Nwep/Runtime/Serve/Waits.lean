/-
The socket waits of the managed server's owner: how many it makes once the stop event is set, and how
long each may be.

The event is looked at in the main loop only. A lookup that pumps the loop in `_resolve_blocking` waits
on, so its waits count against the one the poll cap allows. And each of the two wait sites asks one of
the two timers: the main loop the server's, the pump the dht's.
-/
import Mathlib.Tactic.NormNum
import Nwep.Runtime.Serve.Invariant

namespace Nwep.Runtime.Serve

open Lib

variable {ν α μ ε : Type*} {cfg : Config α} {s s' : State ν α μ ε} {p p' : Pc ν α μ ε} {a : Act ν α μ ε} {last : Int}

/-! ## After the stop event -/

/-- A socket wait that ends with the stop event set. -/
def late (s : State ν α μ ε) : Act ν α μ ε → Bool
  | .call .wait => s.stop
  | _ => false

/-- Inside `_resolve_blocking`. -/
def Pc.pumping : Pc ν α μ ε → Bool
  | .blocking _ _ _ => true
  | _ => false

/-- With the stop event set, no wait is made in `_resolve_blocking`. -/
def NoPumpWait (s : State ν α μ ε) : Act ν α μ ε → Prop
  | .call .wait => s.stop = true → s.pc.pumping = false
  | _ => True

/-- At the stop check, or past it: with the event set there is no wait ahead. -/
def Pc.spent : Pc ν α μ ε → Bool
  | .check | .dhtClose | .serverClose | .finished => true
  | _ => false

/-- The waits ahead of the owner. -/
def State.waits (s : State ν α μ ε) : ℕ := if s.stop = true ∧ s.pc.spent = true then 0 else 1

@[simp] theorem closing_spent : (closing cfg : Pc ν α μ ε).spent = true := by unfold closing; split <;> rfl

theorem waits_le_one (s : State ν α μ ε) : s.waits ≤ 1 := by
  unfold State.waits
  split <;> omega

/-- Nothing but a wait: the owner comes no nearer to another one. -/
theorem waits_mono (h : s.stop = true → s.pc.spent = true → s'.stop = true ∧ s'.pc.spent = true) :
    s'.waits ≤ s.waits := by
  unfold State.waits
  split
  · omega
  · rename_i hn
    split
    · rename_i hs
      exact absurd (h hs.1 hs.2) hn
    · omega

/-- A statement with the waits behind it makes no call. -/
theorem spent_no_call {k : Call ν α μ ε} (h : Next cfg last p k p') (hs : p.spent = true) : False := by
  cases h with
  | fail hf => rcases fails_pc hf with rfl | rfl | rfl | ⟨now, rfl⟩ | rfl <;> cases hs
  | _ => cases hs

theorem waits_step (hc : NoPumpWait s a) (h : Step cfg s a s') : s'.waits + (if late s a then 1 else 0) ≤ s.waits := by
  cases h with
  | @call k p hn =>
    have hspent : s.pc.spent = false := by
      by_contra hs
      exact spent_no_call hn (by simpa using hs)
    have hone : s.waits = 1 := by
      unfold State.waits
      rw [hspent]; simp
    rw [hone]
    by_cases hl : late s (.call k) = true
    · -- the wait of the main loop, and the stop check is next
      unfold late at hl
      split at hl
      · rename_i heq
        cases heq
        have hpump := hc hl
        generalize s.pc = pc at hn hpump
        cases hn with
        | wait => simp [State.waits, late, hl, Pc.spent]
        | fail hf => simp [Pc.fails] at hf
        | blocked | resolved | unresolved => cases hpump
      · cases hl
    · rw [if_neg hl]; exact waits_le_one _
  | checkStop hp hs => exact waits_mono fun _ _ => ⟨hs, closing_spent⟩
  | dhtClose hp | serverClose hp => exact waits_mono fun hs _ => ⟨hs, rfl⟩
  | check hp hs => exact waits_mono fun h => by rw [hs] at h; cases h
  | giveUp hp | report hp | publish hp _ | publishLate hp _ | abandon hp | take hp _ | serviced hp _ | resolve hp _
  | resolveClosed hp _ | reject hp _ | rejectClosed hp _ =>
    refine waits_mono fun _ h => ?_
    rw [hp] at h; cases h
  | shutdown => exact waits_mono fun _ h => ⟨rfl, h⟩
  | takeStop | resume | cancelServe | put | cancelCommand | shutdownJoin | shutdownCancel | runLoop | closeLoop =>
    exact waits_mono fun hs h => ⟨hs, h⟩

/-- On a run whose lookups make no wait once the stop event is set, the owner makes at most one wait
with the event set. -/
theorem stop_noticed {as : List (Act ν α μ ε)} (h : runs (step cfg) init as = some s)
    (hm : Meets (step cfg) NoPumpWait init as) : count (step cfg) late init as ≤ 1 := by
  have hk : True ∧ count (step cfg) late init as + s.waits ≤ (init : State ν α μ ε).waits :=
    count_rank (I := fun _ => True) (L := late) (R := State.waits)
      (fun _ _ _ _ hc h => ⟨trivial, waits_step hc (step_cases h)⟩) as trivial hm h
  have := waits_le_one (init : State ν α μ ε)
  omega

theorem step_blocking (cfg : Config α) {c : Cmd (Command ν)} {timeout : ℚ} {b b' : Blocking} {k : Call ν α μ ε}
    (hp : s.pc = .blocking c timeout b) (hb : b.next timeout k = some (.next b')) :
    step cfg s (.call k) = some { s with pc := .blocking c timeout b' } := by
  have hnote : s.note k = s := by
    unfold State.note
    rw [hp]
  have hnext : s.pc.next cfg s.lastAnnounce k = some (.blocking c timeout b') := by
    rw [hp]
    simp only [Pc.next, hb, Option.map_some]
  simp only [step, hnext, hnote, Option.map_some]

/-- `_resolve_blocking` along the calls `ks`, while it stays in the pump. -/
def Blocking.along (timeout : ℚ) (b : Blocking) (ks : List (Call ν α μ ε)) : Option Blocking :=
  ks.foldlM (fun b k => match b.next timeout k with
    | some (.next b') => some b'
    | _ => none) b

theorem along_cons {timeout : ℚ} {b b' : Blocking} {k : Call ν α μ ε} (ks : List (Call ν α μ ε))
    (h : b.next timeout k = some (.next b')) : b.along timeout (k :: ks) = b'.along timeout ks := by
  unfold Blocking.along
  rw [List.foldlM_cons, h]; rfl

/-- Before its deadline the pump goes on. -/
theorem check_next {timeout t d : ℚ} (h : t < d) :
    (Blocking.check d).next timeout (.monotonic t : Call ν α μ ε) = some (.next (.tick d)) := if_pos h

def Call.isWait : Call ν α μ ε → Bool
  | .wait => true
  | _ => false

/-- The owner follows the pump, and each of its waits counts once the stop event is set. -/
theorem runs_blocking (cfg : Config α) {c : Cmd (Command ν)} {timeout : ℚ} :
    ∀ (ks : List (Call ν α μ ε)) {s : State ν α μ ε} {b b' : Blocking}, s.stop = true → s.pc = .blocking c timeout b →
      b.along timeout ks = some b' →
      runs (step cfg) s (ks.map .call) = some { s with pc := .blocking c timeout b' } ∧
        count (step cfg) late s (ks.map .call) = ks.countP Call.isWait
  | [], s, b, b', _, hp, h => by
    cases h
    refine ⟨?_, rfl⟩
    rw [← hp]; rfl
  | k :: ks, s, b, b', hs, hp, h => by
    unfold Blocking.along at h
    rw [List.foldlM_cons] at h
    obtain ⟨b₁, h1, h2⟩ := Option.bind_eq_some_iff.1 h
    have hnext : b.next timeout k = some (.next b₁) := by
      split at h1
      · rename_i hb; cases h1; exact hb
      · cases h1
    have hstep := step_blocking cfg hp hnext
    obtain ⟨h3, h4⟩ := runs_blocking cfg ks (s := { s with pc := .blocking c timeout b₁ }) hs rfl h2
    refine ⟨?_, ?_⟩
    · rw [List.map_cons, runs_cons, hstep]; exact h3
    · simp only [List.map_cons, count, hstep]
      rw [h4, List.countP_cons]
      cases k <;> simp [late, hs, Call.isWait, Nat.add_comm]

/-- One turn of the pump before its deadline `d`: a wait, and the next one. -/
def pumpTurn (d : ℚ) : List (Call ν α μ ε) :=
  [.wait, .monotonic (d - 1), .tick (.ok ()), .dhtTick 0 (.ok ()), .lookupResult (.ok none), .fileno (.ok ()),
    .dhtNextTimeout (.ok none), .wait]

theorem pumpTurn_along (timeout d w : ℚ) :
    (Blocking.wait d w).along timeout (pumpTurn d : List (Call ν α μ ε)) = some (.check d) := by
  unfold pumpTurn
  rw [along_cons _ rfl, along_cons _ (check_next (sub_one_lt d)), along_cons _ rfl, along_cons _ rfl,
    along_cons _ rfl, along_cons _ rfl, along_cons _ rfl, along_cons _ rfl]
  rfl

/-- Each wait of the pump with the stop event set leaves a run in which another one follows. -/
theorem pump_wait_overruns {c : Cmd (Command ν)} {timeout d w : ℚ} (hs : s.stop = true)
    (hp : s.pc = .blocking c timeout (.wait d w)) :
    ∃ t, runs (step cfg) s ((pumpTurn d).map .call) = some t ∧
      count (step cfg) late s ((pumpTurn d).map .call) = 2 := by
  have halong := pumpTurn_along (ν := ν) (α := α) (μ := μ) (ε := ε) timeout d w
  obtain ⟨h1, h2⟩ := runs_blocking cfg _ hs hp halong
  exact ⟨_, h1, h2⟩

/-- One lookup on the queue, and the stop event set after the owner looked at it. -/
def stopBeforeLookup : List (Act Nat Nat Nat Unit) :=
  startUp ++ [.put ⟨0, 0, .resolve 9 5⟩, .owner, .shutdown 0, .owner]

/-- The lookup hits at once, and the owner waits once before it leaves. -/
def stopThenHit : List (Act Nat Nat Nat Unit) :=
  stopBeforeLookup ++ [.call (.lookupResult (.ok (some 1))), .owner, .owner, .call (.tick (.ok ())),
    .call (.dhtTick 1 (.ok ())), .call (.nextTimeout (.ok none)), .call .wait, .owner, .owner, .owner]

theorem stop_noticed_hit : ∃ s, runs (step ⟨true, none⟩) init stopThenHit = some s ∧ s.pc = .finished ∧
    count (step ⟨true, none⟩) late init stopThenHit ≤ 1 := by
  refine ⟨_, rfl, rfl, stop_noticed (show runs (step ⟨true, none⟩) init stopThenHit = some _ from rfl) ?_⟩
  exact ⟨trivial, trivial, trivial, trivial, trivial, trivial, trivial, trivial, trivial, trivial, trivial, trivial,
    trivial, trivial, trivial, trivial, trivial, trivial, fun _ => rfl, trivial, trivial, trivial, trivial⟩

/-- A lookup that begins at the time `t` and misses, and a turn of the pump before its deadline. -/
def lookupMiss (t timeout : ℚ) : List (Call ν α μ ε) :=
  .lookupResult (.ok none) :: .startLookup 0 (.ok ()) :: .monotonic t :: .monotonic t :: .tick (.ok ()) ::
    .dhtTick 0 (.ok ()) :: .lookupResult (.ok none) :: .fileno (.ok ()) :: .dhtNextTimeout (.ok none) ::
    pumpTurn (t + timeout)

theorem lookupMiss_along {t timeout : ℚ} (ht : t < t + timeout) :
    Blocking.lookup.along timeout (lookupMiss t timeout : List (Call ν α μ ε)) = some (.check (t + timeout)) := by
  unfold lookupMiss
  rw [along_cons _ rfl, along_cons _ rfl, along_cons _ rfl, along_cons _ (check_next ht), along_cons _ rfl,
    along_cons _ rfl, along_cons _ rfl, along_cons _ rfl, along_cons _ rfl]
  exact pumpTurn_along timeout _ _

theorem stop_overrun : ∃ s, runs (step ⟨true, none⟩) init (stopBeforeLookup ++ (lookupMiss 0 5).map .call) = some s ∧
    count (step ⟨true, none⟩) late init (stopBeforeLookup ++ (lookupMiss 0 5).map .call) = 2 := by
  have hstart : ∃ s, runs (step ⟨true, none⟩) init stopBeforeLookup = some s ∧ s.stop = true ∧
      s.pc = .blocking ⟨0, 0, .resolve 9 5⟩ 5 .lookup := ⟨_, rfl, rfl, rfl⟩
  obtain ⟨s, hruns, hs, hp⟩ := hstart
  obtain ⟨h1, h2⟩ := runs_blocking ⟨true, none⟩ _ hs hp (lookupMiss_along (by norm_num))
  refine ⟨_, runs_append _ hruns h1, ?_⟩
  rw [count_append hruns, h2]
  rfl

/-! ## How long a wait may be -/

/-- What `next_timeout` of the server and of the dht report, in ms. -/
structure Timers where
  server : Option Nat
  dht : Option Nat
deriving Repr, DecidableEq

/-- A wait of `w` seconds is over when the timer is due. -/
def EndsBy (w : ℚ) : Option Nat → Prop
  | none => True
  | some ms => w ≤ ms / 1000

/-- What the wait of the managed loop must satisfy. -/
structure WellTimed (t : Timers) (w : ℚ) : Prop where
  nonneg : 0 ≤ w
  capped : w ≤ pollCapS
  server : EndsBy w t.server
  dht : EndsBy w t.dht

/-- The wait the owner is at, in the main loop or in the pump. -/
def Pc.sleep : Pc ν α μ ε → Option ℚ
  | .wait w => some w
  | .blocking _ _ (.wait _ w) => some w
  | _ => none

/-- The timer the owner reads at its statement, and what it returns. -/
def Timers.reading (t : Timers) : Pc ν α μ ε → Option (Call ν α μ ε)
  | .nextTimeout => some (.nextTimeout (.ok t.server))
  | .blocking _ _ (.nextTimeout _) => some (.dhtNextTimeout (.ok t.dht))
  | _ => none

/-- The timer `unread` is not due before the timer `read`, or not within 100 ms. -/
def NotBefore (unread read : Option Nat) : Prop :=
  ∀ ms, unread = some ms → 100 ≤ ms ∨ ∃ n, read = some n ∧ n ≤ ms

/-- The timer that the owner does not read at its statement can wait. -/
def Timers.Harmless (t : Timers) : Pc ν α μ ε → Prop
  | .nextTimeout => NotBefore t.dht t.server
  | .blocking _ _ (.nextTimeout _) => NotBefore t.server t.dht
  | _ => True

/-! ### The capped wait -/

theorem cap_nonneg (t : Option Nat) : 0 ≤ cap t := by
  unfold cap pollCapS
  split
  · norm_num
  · apply le_min
    · exact div_nonneg (Nat.cast_nonneg _) (by norm_num)
    · norm_num

theorem cap_le (t : Option Nat) : cap t ≤ pollCapS := by
  unfold cap
  split
  · exact le_refl _
  · exact min_le_right _ _

theorem cap_endsBy (t : Option Nat) : EndsBy (cap t) t := by
  cases t with
  | none => trivial
  | some ms => exact min_le_left _ _

theorem ms_le_iff (n m : Nat) : (n : ℚ) / 1000 ≤ m / 1000 ↔ n ≤ m := by
  rw [div_le_div_iff_of_pos_right (by norm_num), Nat.cast_le]

theorem pollCapS_le_iff (ms : Nat) : pollCapS ≤ ms / 1000 ↔ 100 ≤ ms := by
  have h : pollCapS = ((100 : Nat) : ℚ) / 1000 := by unfold pollCapS; norm_num
  rw [h, ms_le_iff]

/-- The wait for the timer `read` ends by the timer `unread` exactly when that one is not due before. -/
theorem cap_endsBy_iff (read unread : Option Nat) : EndsBy (cap read) unread ↔ NotBefore unread read := by
  unfold NotBefore
  cases unread with
  | none => exact ⟨fun _ ms h => (by cases h), fun _ => trivial⟩
  | some ms =>
    unfold EndsBy cap
    cases read with
    | none =>
      simp only [pollCapS_le_iff, Option.some.injEq, reduceCtorEq, false_and, exists_false, or_false]
      exact ⟨fun h n hn => hn ▸ h, fun h => h ms rfl⟩
    | some n =>
      simp only [min_le_iff, ms_le_iff, pollCapS_le_iff, Option.some.injEq]
      constructor
      · rintro (h | h) k rfl
        · exact .inr ⟨n, rfl, h⟩
        · exact .inl h
      · intro h
        rcases h ms rfl with h | ⟨k, rfl, hk⟩
        · exact .inr h
        · exact .inl hk

theorem cap_wellTimed {t : Timers} {w : ℚ} (hw : w = cap t.server ∨ w = cap t.dht) :
    WellTimed t w ↔ EndsBy w t.server ∧ EndsBy w t.dht := by
  refine ⟨fun h => ⟨h.server, h.dht⟩, fun h => ⟨?_, ?_, h.1, h.2⟩⟩
  · rcases hw with rfl | rfl <;> exact cap_nonneg _
  · rcases hw with rfl | rfl <;> exact cap_le _

/-! ### The two wait sites -/

theorem blocking_sleep {timeout : ℚ} {b b' : Blocking} {k : Call ν α μ ε} {d w : ℚ}
    (h : b.next timeout k = some (.next b')) (hb : b' = .wait d w) :
    b = .nextTimeout d ∧ ∃ t, k = .dhtNextTimeout (.ok t) ∧ w = cap t := by
  subst hb
  unfold Blocking.next at h
  split at h
  all_goals first
    | (cases h; done)
    | (split at h <;> cases h)
    | skip
  cases h
  exact ⟨rfl, _, rfl, rfl⟩

/-- The owner comes to a wait only by reading the timer of its site. -/
theorem next_sleep {k : Call ν α μ ε} {w : ℚ} (h : Next cfg last p k p') (hw : p'.sleep = some w) :
    ∃ t : Timers, t.reading p = some k ∧ (w = cap t.server ∨ w = cap t.dht) := by
  cases h with
  | @nextTimeout t =>
    cases hw
    exact ⟨⟨t, none⟩, rfl, .inl rfl⟩
  | @blocked c timeout b b' k hb =>
    cases b' with
    | wait d v =>
      cases hw
      obtain ⟨rfl, t, rfl, rfl⟩ := blocking_sleep hb rfl
      exact ⟨⟨none, t⟩, rfl, .inr rfl⟩
    | _ => cases hw
  | fail hf => unfold closing at hw; split at hw <;> cases hw
  | _ => cases hw

/-- Every wait is non-negative and capped. -/
def Capped (s : State ν α μ ε) : Prop := ∀ w, s.pc.sleep = some w → 0 ≤ w ∧ w ≤ pollCapS

theorem capped_step (hc : Capped s) (h : Step cfg s a s') : Capped s' := by
  intro w hw
  cases h with
  | call hn =>
    obtain ⟨t, -, rfl | rfl⟩ := next_sleep hn hw <;> exact ⟨cap_nonneg _, cap_le _⟩
  | take => unfold dispatch at hw; split at hw <;> cases hw
  | checkStop | rejectClosed => unfold closing at hw; split at hw <;> cases hw
  | giveUp | report | publish | publishLate | abandon | check | serviced | resolve | resolveClosed | reject | dhtClose
  | serverClose => cases hw
  | takeStop | resume | cancelServe | put | cancelCommand | shutdown | shutdownJoin | shutdownCancel | runLoop
  | closeLoop => exact hc w hw

/-- In every reachable state a wait is non-negative and at most the poll cap, and the wait that follows
a reading of the timers `t` ends by both exactly when the timer not read there can wait. -/
theorem loop_sleeps {as : List (Act ν α μ ε)} (h : runs (step cfg) init as = some s) :
    Capped s ∧ ∀ (t : Timers) (k : Call ν α μ ε) (s' : State ν α μ ε), t.reading s.pc = some k →
      step cfg s (.call k) = some s' → ∃ w, s'.pc.sleep = some w ∧ (WellTimed t w ↔ t.Harmless s.pc) := by
  have hcap : Capped s := Lib.runs_inv (I := Capped) (fun _ _ _ hi h => capped_step hi (step_cases h)) as
    (fun w hw => by cases hw) h
  refine ⟨hcap, fun t k s' hk hs => ?_⟩
  generalize hp : s.pc = pc at hk
  unfold Timers.reading at hk
  split at hk
  · -- the main loop reads the server's timer
    cases hk
    simp only [step, hp, Pc.next, Option.map_some, Option.some.injEq] at hs
    subst hs
    refine ⟨cap t.server, rfl, ?_⟩
    rw [cap_wellTimed (.inl rfl)]
    exact ⟨fun h => (cap_endsBy_iff _ _).1 h.2, fun h => ⟨cap_endsBy _, (cap_endsBy_iff _ _).2 h⟩⟩
  · -- the pump reads the dht's
    rename_i c timeout d
    cases hk
    have hstep : step cfg s (.call (.dhtNextTimeout (.ok t.dht))) =
        some { s with pc := .blocking c timeout (.wait d (cap t.dht)) } :=
      step_blocking cfg hp rfl
    rw [hstep] at hs
    cases hs
    refine ⟨cap t.dht, rfl, ?_⟩
    rw [cap_wellTimed (.inr rfl)]
    exact ⟨fun h => (cap_endsBy_iff _ _).1 h.1, fun h => ⟨(cap_endsBy_iff _ _).2 h, cap_endsBy _⟩⟩
  · cases hk

/-- A serving server with a dht, about to read the server's timer. -/
def toTimer : List (Act Nat Nat Nat Unit) :=
  startUp ++ [.owner, .owner, .call (.tick (.ok ())), .call (.dhtTick 0 (.ok ()))]

theorem loop_sleeps_idle : ∃ s s' w, runs (step ⟨true, none⟩) init toTimer = some s ∧
    step ⟨true, none⟩ s (.call (.nextTimeout (.ok (some 20)))) = some s' ∧ s'.pc.sleep = some w ∧
      WellTimed ⟨some 20, some 30⟩ w := by
  have hruns : ∃ s, runs (step ⟨true, none⟩) init toTimer = some s ∧ s.pc = .nextTimeout := ⟨_, rfl, rfl⟩
  obtain ⟨s, hs, hp⟩ := hruns
  have hstep : ∃ s', step ⟨true, none⟩ s (.call (.nextTimeout (.ok (some 20)))) = some s' := by
    simp only [step, hp, Pc.next]
    exact ⟨_, rfl⟩
  obtain ⟨s', hs'⟩ := hstep
  obtain ⟨w, hw, hiff⟩ := (loop_sleeps hs).2 ⟨some 20, some 30⟩ _ s' (by rw [hp]; rfl) hs'
  refine ⟨s, s', w, hs, hs', hw, hiff.2 ?_⟩
  rw [hp]
  rintro ms h
  cases h
  exact .inr ⟨20, rfl, by decide⟩

/-- The dht's timer is due at once and the server's is idle: the main loop waits for the whole cap. -/
theorem timer_overslept : ∃ s s' w, runs (step ⟨true, none⟩) init toTimer = some s ∧
    step ⟨true, none⟩ s (.call (.nextTimeout (.ok none))) = some s' ∧ s'.pc.sleep = some w ∧
      ¬ WellTimed ⟨none, some 0⟩ w := by
  refine ⟨_, _, _, rfl, rfl, rfl, fun h => ?_⟩
  have := h.dht
  simp only [EndsBy, cap, pollCapS] at this
  norm_num at this

end Nwep.Runtime.Serve
