/-
How the owner thread of the managed server uses the library: the server's socket, and the dht that
borrows it, as one session with a protocol of its own. The protocol lets a function be called only
on a handle that is open, the dht's only while the server is open too, a wait on the socket only
after the server, and the dht on it, were ticked since the wait before, and the server be closed only
without an open dht on it.

A start-up given up with a dht attached closes the server under it. Every other run of the owner keeps
to the protocol, the runs in which a lookup pumps the loop included.
-/
import Nwep.Lib.Observe
import Nwep.Runtime.Serve.Lifecycle

namespace Nwep.Runtime.Serve

open Lib

/-! ## The protocol -/

/-- What the owner does with the library, and with the server's socket. -/
inductive Use where
  | build
  | attach
  | server
  | dht
  | tick
  | dhtTick
  | wait
  | dhtClose
  | serverClose
deriving Repr, DecidableEq

/-- The handles, and what was ticked since the last wait. -/
structure Session where
  server : Custody
  dht : Custody
  ticked : Bool
  dhtTicked : Bool
deriving Repr, DecidableEq

namespace Session

def init : Session := ⟨.unopened, .unopened, false, false⟩

/-- The session after a use, when the protocol lets it be made. -/
def step (x : Session) : Use → Option Session
  | .build => if x.server = .unopened then some { x with server := .opened } else none
  | .attach => if x.server = .opened ∧ x.dht = .unopened then some { x with dht := .opened } else none
  | .server => if x.server = .opened then some x else none
  | .dht => if x.server = .opened ∧ x.dht = .opened then some x else none
  | .tick => if x.server = .opened then some { x with ticked := true } else none
  | .dhtTick => if x.server = .opened ∧ x.dht = .opened then some { x with dhtTicked := true } else none
  | .wait =>
    if x.server = .opened ∧ x.ticked = true ∧ (x.dht = .opened → x.dhtTicked = true) then
      some { x with ticked := false, dhtTicked := false }
    else none
  | .dhtClose => if x.server = .opened ∧ x.dht = .opened then some { x with dht := .done } else none
  | .serverClose => if x.server = .opened ∧ x.dht ≠ .opened then some { x with server := .done } else none

end Session

/-! ## The owner's uses -/

section Uses

variable {ν α μ ε : Type*}

/-- The use a call is; a build that raises hands out no handle, and the clock is not the library's. -/
def Call.use : Call ν α μ ε → Option Use
  | .build (.ok _) => some .build
  | .build (.error _) | .monotonic _ => none
  | .attach (.ok _) => some .attach
  | .attach (.error _) | .nodeId _ | .localPort _ | .fileno _ | .nextTimeout _ => some .server
  | .bootstrap _ _ | .announce _ | .dhtNextTimeout _ | .lookupResult _ | .startLookup _ _ | .metrics _ => some .dht
  | .tick _ => some .tick
  | .dhtTick _ _ => some .dhtTick
  | .wait => some .wait

/-- The use of a step: of a library call, or of a close. -/
def use (s : State ν α μ ε) : Act ν α μ ε → Option Use
  | .call k => k.use
  | .owner => match s.pc with
    | .giveUp _ | .abandon | .serverClose => some .serverClose
    | .dhtClose => some .dhtClose
    | _ => none
  | _ => none

/-- The statements that close the server outside the `finally` block. -/
def Pc.givesUp : Pc ν α μ ε → Bool
  | .giveUp _ | .abandon => true
  | _ => false

/-- Where the owner gives its start-up up, no dht is attached to the server. -/
def DhtFirst (s : State ν α μ ε) (a : Act ν α μ ε) : Prop := s.pc.givesUp = true → a.isOwner = true → ¬ s.dht.Live

instance (s : State ν α μ ε) (a : Act ν α μ ε) : Decidable (DhtFirst s a) := inferInstanceAs (Decidable (_ → _ → _))

end Uses

namespace Session

variable {x x' : Session}

theorem runs_server (hs : x.server = .opened) : runs step x [.server] = some x := by
  simp [runs, step, hs]

theorem runs_dht (hs : x.server = .opened) (hd : x.dht = .opened) : runs step x [.dht] = some x := by
  simp [runs, step, hs, hd]

theorem runs_tick (hs : x.server = .opened) : runs step x [.tick] = some { x with ticked := true } := by
  simp [runs, step, hs]

theorem runs_dhtTick (hs : x.server = .opened) (hd : x.dht = .opened) :
    runs step x [.dhtTick] = some { x with dhtTicked := true } := by
  simp [runs, step, hs, hd]

theorem runs_wait (hs : x.server = .opened) (ht : x.ticked = true) (hd : x.dht = .opened → x.dhtTicked = true) :
    runs step x [.wait] = some { x with ticked := false, dhtTicked := false } := by
  simp only [runs, List.foldlM_cons, step, hs, ht, true_and]
  rw [if_pos hd]; rfl

theorem runs_serverClose (hs : x.server = .opened) (hd : x.dht ≠ .opened) :
    runs step x [.serverClose] = some { x with server := .done } := by
  simp [runs, step, hs, hd]

/-- The dht is opened by `attach` and closed by `dhtClose`. -/
theorem runs_dht_eq {u : Option Use} (h : runs step x u.toList = some x') (ha : u ≠ some .attach)
    (hc : u ≠ some .dhtClose) : x'.dht = x.dht := by
  cases u with
  | none => cases h; rfl
  | some u =>
    obtain ⟨x₁, h1, h2⟩ := runs_cons_some step h
    cases h2
    cases u with
    | attach => exact absurd rfl ha
    | dhtClose => exact absurd rfl hc
    | _ =>
      simp only [step] at h1
      split at h1
      · cases h1; rfl
      · cases h1

end Session

/-! ## The session at each statement -/

section Fit

variable {ν α μ ε : Type*} {cfg : Config α} {s s' : State ν α μ ε} {a : Act ν α μ ε} {p p' : Pc ν α μ ε}
  {k : Call ν α μ ε} {last : Int} {x : Session}

/-- The statements past a tick of the server, on the way to a wait. -/
def Pc.ticked : Pc ν α μ ε → Bool
  | .dhtTick | .announce _ | .nextTimeout | .wait _ => true
  | .blocking _ _ (.dhtTick _) | .blocking _ _ (.again _) | .blocking _ _ (.fileno _)
  | .blocking _ _ (.nextTimeout _) | .blocking _ _ (.wait _ _) => true
  | _ => false

/-- The statements past a tick of the dht, where there is one, on the way to a wait. -/
def Pc.dhtTicked : Pc ν α μ ε → Bool
  | .announce _ | .nextTimeout | .wait _ => true
  | .blocking _ _ (.again _) | .blocking _ _ (.fileno _) | .blocking _ _ (.nextTimeout _)
  | .blocking _ _ (.wait _ _) => true
  | _ => false

/-- The statements that only an owner with a dht comes to. -/
def Pc.withDht : Pc ν α μ ε → Bool
  | .attach | .bootstrap | .blocking _ _ _ | .metrics _ | .dhtTick | .announce _ | .dhtClose => true
  | _ => false

/-- The session is what the owner's statement needs of it. -/
structure Fit (cfg : Config α) (p : Pc ν α μ ε) (x : Session) : Prop where
  server : p.server ≠ .done → x.server = p.server
  dht : p.dht cfg = .opened → x.dht = .opened
  unattached : p = .build ∨ p = .attach ∨ cfg.hasDht = false → x.dht = .unopened
  withDht : p.withDht = true → cfg.hasDht = true
  ticked : p.ticked = true → x.ticked = true
  dhtTicked : p.dhtTicked = true → cfg.hasDht = true → x.dhtTicked = true
  closed : p = .serverClose → x.dht ≠ .opened

theorem Fit.opened (hf : Fit cfg p x) (h : p.server = .opened) : x.server = .opened := by
  rw [hf.server (by rw [h]; decide), h]

theorem Fit.attached (hf : Fit cfg p x) (hw : p.withDht = true)
    (h : p.dht cfg = if cfg.hasDht then .opened else .unopened) :
    x.dht = .opened := hf.dht (by rw [h, if_pos (hf.withDht hw)])

/-- The statements between the start-up of the dht and the `finally` block. -/
def Pc.Between (cfg : Config α) (p : Pc ν α μ ε) : Prop :=
  p.server = .opened ∧ p.dht cfg = (if cfg.hasDht then .opened else .unopened) ∧ p ≠ .build ∧ p ≠ .attach

/-- The handles as the owner has them between those. -/
def Session.Between (cfg : Config α) (x : Session) : Prop :=
  x.server = .opened ∧ x.dht = if cfg.hasDht then .opened else .unopened

theorem Fit.between (hf : Fit cfg p x) (hp : p.Between cfg) : x.Between cfg := by
  obtain ⟨h1, h2, -, -⟩ := hp
  refine ⟨hf.opened h1, ?_⟩
  cases hd : cfg.hasDht with
  | true => exact hf.dht (by rw [h2, hd]; rfl)
  | false => exact hf.unattached (.inr (.inr hd))

theorem fit_between (hp : p.Between cfg) (hx : x.Between cfg) (hw : p.withDht = true → cfg.hasDht = true)
    (ht : p.ticked = true → x.ticked = true) (hdt : p.dhtTicked = true → cfg.hasDht = true → x.dhtTicked = true) :
    Fit cfg p x where
  server _ := hx.1.trans hp.1.symm
  dht h := by
    obtain ⟨-, h2, -, -⟩ := hp
    rw [hx.2, ← h2]; exact h
  unattached h := by
    obtain ⟨-, -, h3, h4⟩ := hp
    rcases h with h | h | h
    · exact absurd h h3
    · exact absurd h h4
    · rw [hx.2, if_neg (by rw [h]; decide)]
  withDht := hw
  ticked := ht
  dhtTicked := hdt
  closed h := by
    obtain ⟨-, h2, -, -⟩ := hp
    rw [h] at h2
    cases hd : cfg.hasDht <;> rw [hd] at h2 <;> cases h2

theorem serving_between (h : p.serving = true) : p.Between cfg := by
  unfold Pc.Between
  cases p <;> first
    | (cases h; done)
    | exact ⟨rfl, rfl, by simp, by simp⟩

/-- Into the `finally` block. -/
theorem fit_closing (hx : x.Between cfg) : Fit cfg (closing cfg : Pc ν α μ ε) x := by
  obtain ⟨hs, hd⟩ := hx
  unfold closing
  cases h : cfg.hasDht with
  | true =>
    rw [h] at hd
    refine ⟨fun _ => hs, fun _ => hd, ?_, fun _ => h, fun ht => (by cases ht), fun ht => (by cases ht),
      fun hc => by cases hc⟩
    rintro (hp | hp | hp)
    · cases hp
    · cases hp
    · rw [h] at hp; cases hp
  | false =>
    rw [h] at hd
    exact ⟨fun _ => hs, fun hp => (by cases hp), fun _ => hd, fun hw => (by cases hw), fun ht => (by cases ht),
      fun ht => (by cases ht), fun _ => by rw [hd]; decide⟩

/-- Out of the loop, or past a start-up that failed: the dht, if there is one, is not used again. -/
theorem Fit.leave {x' : Session} (hf : Fit cfg p x) (hs : p'.server ≠ .done → x'.server = p'.server)
    (hx : x'.dht = x.dht) (hd : p'.dht cfg ≠ .opened) (hp : p' ≠ .build ∧ p' ≠ .attach ∧ p' ≠ .serverClose)
    (hw : p'.withDht = false)
    (ht : p'.ticked = false) (hdt : p'.dhtTicked = false) : Fit cfg p' x' where
  server := hs
  dht h := absurd h hd
  unattached h := by
    rw [hx]
    rcases h with h | h | h
    · exact absurd h hp.1
    · exact absurd h hp.2.1
    · exact hf.unattached (.inr (.inr h))
  withDht h := by rw [hw] at h; cases h
  ticked h := by rw [ht] at h; cases h
  dhtTicked h := by rw [hdt] at h; cases h
  closed h := absurd h hp.2.2

/-- The pump goes on: what it calls is permitted, and leaves the session it needs next. -/
theorem Fit.blocked {c : Cmd (Command ν)} {timeout : ℚ} {b b' : Blocking}
    (hf : Fit cfg (.blocking c timeout b : Pc ν α μ ε) x) (h : b.next timeout k = some (.next b')) :
    ∃ x', runs Session.step x k.use.toList = some x' ∧ Fit cfg (.blocking c timeout b' : Pc ν α μ ε) x' := by
  have hs := hf.opened rfl
  have hd := hf.attached rfl rfl
  have hw := hf.withDht rfl
  have hmove : ∀ b'' : Blocking, (∀ x', x'.server = x.server → x'.dht = x.dht →
      ((Pc.blocking c timeout b'' : Pc ν α μ ε).ticked = true → x'.ticked = true) →
      ((Pc.blocking c timeout b'' : Pc ν α μ ε).dhtTicked = true → x'.dhtTicked = true) →
      Fit cfg (.blocking c timeout b'' : Pc ν α μ ε) x') := by
    intro b'' x' h1 h2 h3 h4
    refine ⟨fun _ => by rw [h1]; exact hs, fun _ => by rw [h2]; exact hd, ?_, fun _ => hw, h3, fun h _ => h4 h,
      fun h => by cases h⟩
    rintro (h | h | h)
    · cases h
    · cases h
    · rw [hw] at h; cases h
  unfold Blocking.next at h
  split at h
  all_goals first
    | (cases h; done)
    | skip
  · cases h; exact ⟨x, Session.runs_dht hs hd, hmove _ x rfl rfl (fun h => by cases h) (fun h => by cases h)⟩
  · cases h; exact ⟨x, Session.runs_dht hs hd, hmove _ x rfl rfl (fun h => by cases h) (fun h => by cases h)⟩
  · cases h; exact ⟨x, rfl, hmove _ x rfl rfl (fun h => by cases h) (fun h => by cases h)⟩
  · split at h
    · cases h; exact ⟨x, rfl, hmove _ x rfl rfl (fun h => by cases h) (fun h => by cases h)⟩
    · cases h
  · cases h; exact ⟨_, Session.runs_tick hs, hmove _ _ rfl rfl (fun _ => rfl) (fun h => by cases h)⟩
  · cases h
    exact ⟨_, Session.runs_dhtTick hs hd, hmove _ _ rfl rfl (fun _ => hf.ticked rfl) (fun _ => rfl)⟩
  · cases h; exact ⟨x, Session.runs_dht hs hd,
      hmove _ x rfl rfl (fun _ => hf.ticked rfl) (fun _ => hf.dhtTicked rfl hw)⟩
  · cases h; exact ⟨x, Session.runs_server hs,
      hmove _ x rfl rfl (fun _ => hf.ticked rfl) (fun _ => hf.dhtTicked rfl hw)⟩
  · cases h; exact ⟨x, Session.runs_dht hs hd,
      hmove _ x rfl rfl (fun _ => hf.ticked rfl) (fun _ => hf.dhtTicked rfl hw)⟩
  · cases h
    exact ⟨_, Session.runs_wait hs (hf.ticked rfl) (fun _ => hf.dhtTicked rfl hw),
      hmove _ _ rfl rfl (fun h => by cases h) (fun h => by cases h)⟩

/-- The pump ends: its last call is permitted, and touches at most what was ticked. -/
theorem Fit.ended {c : Cmd (Command ν)} {timeout : ℚ} {b : Blocking} {r : Blocked α ε}
    (hf : Fit cfg (.blocking c timeout b : Pc ν α μ ε) x) (h : b.next timeout k = some r) (hr : ∀ b', r ≠ .next b') :
    ∃ x', runs Session.step x k.use.toList = some x' ∧ x'.server = .opened ∧ x'.dht = .opened := by
  have hs := hf.opened rfl
  have hd := hf.attached rfl rfl
  unfold Blocking.next at h
  split at h
  all_goals first
    | (cases h; done)
    | (cases h; exact absurd rfl (hr _))
    | (cases h; exact ⟨x, Session.runs_dht hs hd, hs, hd⟩)
    | (cases h; exact ⟨x, Session.runs_server hs, hs, hd⟩)
    | (cases h; exact ⟨_, Session.runs_tick hs, hs, hd⟩)
    | (cases h; exact ⟨_, Session.runs_dhtTick hs hd, hs, hd⟩)
    | exact ⟨x, rfl, hs, hd⟩

/-- A call that fails in the loop is permitted, and leaves the handles as they were. -/
theorem Fit.fails (hf : Fit cfg p x) (h : p.fails k = true) :
    ∃ x', runs Session.step x k.use.toList = some x' ∧ x'.Between cfg := by
  have hp : p.Between cfg := serving_between (by rcases fails_pc h with rfl | rfl | rfl | ⟨now, rfl⟩ | rfl <;> rfl)
  have hx := hf.between hp
  rcases fails_pc h with rfl | rfl | rfl | ⟨now, rfl⟩ | rfl <;> unfold Pc.fails at h
  · cases k with
    | fileno => exact ⟨x, Session.runs_server hx.1, hx⟩
    | _ => cases h
  · cases k with
    | tick => exact ⟨_, Session.runs_tick hx.1, hx⟩
    | _ => cases h
  · cases k with
    | dhtTick => exact ⟨_, Session.runs_dhtTick hx.1 (hf.attached rfl rfl), hx⟩
    | _ => cases h
  · cases k with
    | announce => exact ⟨x, Session.runs_dht hx.1 (hf.attached rfl rfl), hx⟩
    | _ => cases h
  · cases k with
    | nextTimeout => exact ⟨x, Session.runs_server hx.1, hx⟩
    | _ => cases h

/-- What the owner calls is permitted, and leaves the session its next statement needs. -/
theorem Fit.next (hf : Fit cfg p x) (h : Next cfg last p k p') :
    ∃ x', runs Session.step x k.use.toList = some x' ∧ Fit cfg p' x' := by
  cases h with
  | buildDht hd =>
    have hu := hf.server (by simp [Pc.server])
    have hn := hf.unattached (.inl rfl)
    refine ⟨{ x with server := .opened }, by simp [runs, Call.use, Session.step, hu, Pc.server], fun _ => rfl,
      fun h => (by cases h), fun _ => hn, fun _ => hd, fun h => (by cases h), fun h => (by cases h),
      fun h => by cases h⟩
  | build hd =>
    have hu := hf.server (by simp [Pc.server])
    have hn := hf.unattached (.inl rfl)
    refine ⟨{ x with server := .opened }, by simp [runs, Call.use, Session.step, hu, Pc.server], ?_⟩
    exact fit_between ⟨rfl, rfl, by simp, by simp⟩ ⟨rfl, by rw [if_neg (by rw [hd]; decide)]; exact hn⟩
      (fun h => by cases h) (fun h => by cases h) (fun h => by cases h)
  | buildFail =>
    exact ⟨x, rfl, hf.leave (fun h => absurd rfl h) rfl (by simp [Pc.dht]) (by simp) rfl rfl rfl⟩
  | attach =>
    have hs := hf.opened rfl
    have hn := hf.unattached (.inr (.inl rfl))
    have hd := hf.withDht rfl
    refine ⟨{ x with dht := .opened }, by simp [runs, Call.use, Session.step, hs, hn], fun _ => hs, fun _ => rfl, ?_,
      fun _ => hd, fun h => (by cases h), fun h => (by cases h), fun h => by cases h⟩
    rintro (h | h | h)
    · cases h
    · cases h
    · rw [hd] at h; cases h
  | attachFail =>
    have hs := hf.opened rfl
    exact ⟨x, Session.runs_server hs, hf.leave (fun _ => hs) rfl (by simp [Pc.dht]) (by simp) rfl rfl rfl⟩
  | bootstrap =>
    have hs := hf.opened rfl
    have hd := hf.dht rfl
    refine ⟨x, Session.runs_dht hs hd, ?_⟩
    exact fit_between ⟨rfl, rfl, by simp, by simp⟩ ⟨hs, by rw [if_pos (hf.withDht rfl)]; exact hd⟩
      (fun h => by cases h) (fun h => by cases h) (fun h => by cases h)
  | bootstrapFail =>
    have hs := hf.opened rfl
    have hd := hf.dht rfl
    exact ⟨x, Session.runs_dht hs hd, hf.leave (fun _ => hs) rfl (by simp [Pc.dht]) (by simp) rfl rfl rfl⟩
  | nodeId | localPort =>
    have hx := hf.between ⟨rfl, rfl, by simp, by simp⟩
    exact ⟨x, Session.runs_server hx.1, fit_between ⟨rfl, rfl, by simp, by simp⟩ hx (fun h => by cases h)
      (fun h => by cases h) (fun h => by cases h)⟩
  | nodeIdFail | localPortFail =>
    have hx := hf.between ⟨rfl, rfl, by simp, by simp⟩
    exact ⟨x, Session.runs_server hx.1,
      hf.leave (fun h => absurd rfl h) rfl (by simp [Pc.dht]) (by simp) rfl rfl rfl⟩
  | fileno =>
    have hx := hf.between (serving_between rfl)
    exact ⟨x, Session.runs_server hx.1, fit_between (serving_between rfl) hx (fun h => by cases h)
      (fun h => by cases h) (fun h => by cases h)⟩
  | blocked hb => exact hf.blocked hb
  | resolved hb | unresolved hb =>
    obtain ⟨x', h1, h2, h3⟩ := hf.ended hb (by simp)
    refine ⟨x', h1, fit_between (serving_between rfl) ⟨h2, ?_⟩ (fun h => by cases h) (fun h => by cases h)
      (fun h => by cases h)⟩
    rw [if_pos (hf.withDht rfl)]; exact h3
  | metrics | metricsFail =>
    have hx := hf.between (serving_between rfl)
    exact ⟨x, Session.runs_dht hx.1 (hf.attached rfl rfl), fit_between (serving_between rfl) hx (fun h => by cases h)
      (fun h => by cases h) (fun h => by cases h)⟩
  | tickDht hd =>
    have hx := hf.between (serving_between rfl)
    exact ⟨_, Session.runs_tick hx.1, fit_between (serving_between rfl) hx (fun _ => hd) (fun _ => rfl)
      (fun h => by cases h)⟩
  | tick hd =>
    have hx := hf.between (serving_between rfl)
    exact ⟨_, Session.runs_tick hx.1, fit_between (serving_between rfl) hx (fun h => by cases h) (fun _ => rfl)
      (fun _ h => by rw [hd] at h; cases h)⟩
  | dhtTickDue =>
    have hx := hf.between (serving_between rfl)
    have hw := hf.withDht rfl
    exact ⟨_, Session.runs_dhtTick hx.1 (hf.attached rfl rfl), fit_between (serving_between rfl) hx (fun _ => hw)
      (fun _ => hf.ticked rfl) (fun _ _ => rfl)⟩
  | dhtTick =>
    have hx := hf.between (serving_between rfl)
    exact ⟨_, Session.runs_dhtTick hx.1 (hf.attached rfl rfl), fit_between (serving_between rfl) hx
      (fun h => by cases h) (fun _ => hf.ticked rfl) (fun _ _ => rfl)⟩
  | announce =>
    have hx := hf.between (serving_between rfl)
    exact ⟨x, Session.runs_dht hx.1 (hf.attached rfl rfl), fit_between (serving_between rfl) hx (fun h => by cases h)
      (fun _ => hf.ticked rfl) (fun _ h => hf.dhtTicked rfl h)⟩
  | nextTimeout =>
    have hx := hf.between (serving_between rfl)
    exact ⟨x, Session.runs_server hx.1, fit_between (serving_between rfl) hx (fun h => by cases h)
      (fun _ => hf.ticked rfl) (fun _ h => hf.dhtTicked rfl h)⟩
  | wait =>
    have hx := hf.between (serving_between rfl)
    refine ⟨_, Session.runs_wait hx.1 (hf.ticked rfl) fun hd => hf.dhtTicked rfl ?_,
      fit_between (serving_between rfl) hx
      (fun h => by cases h) (fun h => by cases h) (fun h => by cases h)⟩
    by_contra hn
    rw [hx.2, if_neg hn] at hd; cases hd
  | fail hk =>
    obtain ⟨x', h1, h2⟩ := hf.fails hk
    exact ⟨x', h1, fit_closing h2⟩

/-! ## Every run keeps to the protocol -/

/-- The session is what the owner's statement needs, it has the dht as the owner holds it, and commands were put
only where there is a dht. -/
structure Agrees (cfg : Config α) (s : State ν α μ ε) (x : Session) : Prop where
  fit : Fit cfg s.pc x
  held : s.dht.As x.dht
  sent : s.bridge.sent ≠ [] → cfg.hasDht = true

theorem init_agrees : Agrees cfg (init : State ν α μ ε) .init where
  fit := ⟨fun _ => rfl, fun h => (by cases h), fun _ => rfl, fun h => (by cases h), fun h => (by cases h),
    fun h => (by cases h), fun h => by cases h⟩
  held := rfl
  sent h := absurd rfl h

/-- A step that uses nothing, with the owner where it was. -/
theorem Agrees.stay (hg : Agrees cfg s x) (hpc : s'.pc = s.pc) (hd : s'.dht = s.dht)
    (hs : s'.bridge.sent ≠ [] → cfg.hasDht = true) (hu : use s a = none) :
    ∃ x', runs Session.step x (use s a).toList = some x' ∧ Agrees cfg s' x' :=
  ⟨x, by rw [hu]; rfl, by rw [hpc]; exact hg.fit, by rw [hd]; exact hg.held, hs⟩

/-- The owner moves on between the start-up and the `finally` block, using nothing. -/
theorem Agrees.on (hg : Agrees cfg s x) (hp : s.pc.Between cfg) (hp' : s'.pc.Between cfg)
    (hd : s'.dht = s.dht) (hw : s'.pc.withDht = true → cfg.hasDht = true) (ht : s'.pc.ticked = false)
    (hdt : s'.pc.dhtTicked = false) (hs : s'.bridge.sent = s.bridge.sent) (hu : use s a = none) :
    ∃ x', runs Session.step x (use s a).toList = some x' ∧ Agrees cfg s' x' := by
  refine ⟨x, by rw [hu]; rfl, fit_between hp' (hg.fit.between hp) hw ?_ ?_, by rw [hd]; exact hg.held,
    by rw [hs]; exact hg.sent⟩
  · intro h; rw [ht] at h; cases h
  · intro h; rw [hdt] at h; cases h

theorem Agrees.not_opened (hg : Agrees cfg s x) (h : ¬ s.dht.Live) : x.dht ≠ .opened :=
  fun ho => h (Handle.As.live (ho ▸ hg.held))

/-- The owner closes the server, with no dht open on it, and is done with both. -/
theorem Agrees.closes (hg : Agrees cfg s x) (hs : x.server = .opened) (hd : x.dht ≠ .opened)
    (hu : use s a = some .serverClose) (hp : s'.pc = .finished ∨ ∃ e, s'.pc = .report e) (hdht : s'.dht = s.dht)
    (hb : s'.bridge = s.bridge) : ∃ x', runs Session.step x (use s a).toList = some x' ∧ Agrees cfg s' x' := by
  refine ⟨{ x with server := .done }, by rw [hu]; exact Session.runs_serverClose hs hd, ?_, by rw [hdht]; exact hg.held,
    by rw [hb]; exact hg.sent⟩
  rcases hp with hp | ⟨e, hp⟩ <;>
    exact hp ▸ hg.fit.leave (fun h => absurd rfl h) rfl (by simp [Pc.dht]) (by simp) rfl rfl rfl

theorem dispatch_serving (c : Cmd (Command ν)) : (dispatch c : Pc ν α μ ε).serving = true := by
  unfold dispatch; split <;> rfl

theorem dispatch_ticked (c : Cmd (Command ν)) :
    (dispatch c : Pc ν α μ ε).ticked = false ∧ (dispatch c : Pc ν α μ ε).dhtTicked = false := by
  unfold dispatch; split <;> exact ⟨rfl, rfl⟩

theorem next_attach {u : Unit} (h : Next cfg last p (.attach (.ok u)) p') : p = .attach := by
  have hpump (timeout : ℚ) (b : Blocking) : b.next timeout (.attach (.ok u) : Call ν α μ ε) = none := by
    cases b <;> rfl
  cases h with
  | attach => rfl
  | blocked hb | resolved hb | unresolved hb => rw [hpump] at hb; cases hb
  | fail hf => cases p <;> cases hf

/-- A call leaves the owner's dht as the session has it. -/
theorem held_call {x' : Session} (hg : Agrees cfg s x) (hn : Next cfg last s.pc k p)
    (hr : runs Session.step x k.use.toList = some x') : (s.note k).dht.As x'.dht := by
  by_cases hk : ∃ u, k = .attach (.ok u)
  · obtain ⟨u, rfl⟩ := hk
    have hp : s.pc = .attach := next_attach hn
    have hfit := hg.fit
    rw [hp] at hfit
    have hopen : x.server = .opened := hfit.opened rfl
    have hun : x.dht = .unopened := hfit.unattached (.inr (.inl rfl))
    have hheld : s.dht.As .unopened := hun ▸ hg.held
    have hx : x' = { x with dht := .opened } := by
      simpa [runs, Call.use, Session.step, hopen, hun] using hr.symm
    rw [hx]
    simp only [State.note, hp]
    exact hheld.acquire
  · have hnote : (s.note k).dht = s.dht := by
      unfold State.note
      split
      case h_2 u _ => exact absurd ⟨u, rfl⟩ hk
      all_goals rfl
    have hattach : k.use ≠ some .attach := by
      intro h
      unfold Call.use at h
      split at h <;> first | (cases h; done) | exact hk ⟨_, rfl⟩
    have hclose : k.use ≠ some .dhtClose := by
      intro h
      unfold Call.use at h
      split at h <;> cases h
    rw [hnote, Session.runs_dht_eq hr hattach hclose]
    exact hg.held

/-- Where the owner gives its start-up up without a dht, or does anything else, the protocol permits it. -/
theorem agrees_step (hg : Agrees cfg s x) (h : Step cfg s a s') (hc : DhtFirst s a) :
    ∃ x', runs Session.step x (use s a).toList = some x' ∧ Agrees cfg s' x' := by
  have hf := hg.fit
  cases h with
  | @call k p hn =>
    obtain ⟨x', h1, h2⟩ := hf.next hn
    exact ⟨x', h1, h2, held_call hg hn h1, by simp only [note_bridge]; exact hg.sent⟩
  | giveUp hp =>
    have hd : x.dht ≠ .opened := hg.not_opened (hc (by rw [hp]; rfl) rfl)
    rw [hp] at hf
    exact hg.closes (hf.opened rfl) hd (by simp only [use, hp]) (.inr ⟨_, rfl⟩) rfl rfl
  | report hp =>
    rw [hp] at hf
    exact ⟨x, by simp only [use, hp]; rfl,
      hf.leave (fun h => absurd rfl h) rfl (by simp [Pc.dht]) (by simp) rfl rfl rfl, hg.held, hg.sent⟩
  | publish hp _ =>
    exact hg.on (by rw [hp]; exact ⟨rfl, rfl, by simp, by simp⟩) (serving_between rfl) rfl (fun h => by cases h) rfl rfl
      rfl (by simp only [use, hp])
  | publishLate hp _ =>
    rw [hp] at hf
    have hx := hf.between ⟨rfl, rfl, by simp, by simp⟩
    exact ⟨x, by simp only [use, hp]; rfl,
      hf.leave (fun _ => hx.1) rfl (by simp [Pc.dht]) (by simp) rfl rfl rfl, hg.held, hg.sent⟩
  | abandon hp =>
    have hd : x.dht ≠ .opened := hg.not_opened (hc (by rw [hp]; rfl) rfl)
    rw [hp] at hf
    exact hg.closes (hf.opened rfl) hd (by simp only [use, hp]) (.inl rfl) rfl rfl
  | check hp _ | serviced hp _ | resolveClosed hp _ =>
    exact hg.on (by rw [hp]; exact serving_between rfl) (serving_between rfl) rfl (fun h => by cases h) rfl rfl rfl
      (by simp only [use, hp])
  | checkStop hp _ | rejectClosed hp _ =>
    rw [hp] at hf
    exact ⟨x, by simp only [use, hp]; rfl, fit_closing (hf.between (serving_between rfl)), hg.held, hg.sent⟩
  | @take c b hp hb =>
    have hsent : b.sent = s.bridge.sent := Bridge.get_sent hb
    have hd : cfg.hasDht = true := by
      refine hg.sent fun hnil => ?_
      have hc : c ∈ b.sent := b.taken_sent (by rw [Bridge.get_cmd_taken hb]; simp)
      rw [hsent, hnil] at hc; cases hc
    exact hg.on (by rw [hp]; exact serving_between rfl) (serving_between (dispatch_serving c)) rfl (fun _ => hd)
      (dispatch_ticked c).1 (dispatch_ticked c).2 hsent (by simp only [use, hp])
  | takeStop hp hb =>
    exact hg.stay rfl rfl (by simp only [Bridge.get_sent hb]; exact hg.sent) (by simp only [use, hp])
  | resolve hp hb | reject hp hb =>
    have hq := (Bridge.callSoon_taken hb).1
    exact hg.on (by rw [hp]; exact serving_between rfl) (serving_between rfl) rfl (fun h => by cases h) rfl rfl
      (by simp only [Bridge.sent, hq]) (by simp only [use, hp])
  | dhtClose hp =>
    rw [hp] at hf
    have hs := hf.opened rfl
    have hd := hf.dht rfl
    have hw := hf.withDht rfl
    have hheld : s.dht.As .opened := hd ▸ hg.held
    refine ⟨{ x with dht := .done }, by simp [use, hp, runs, Session.step, hs, hd], ⟨fun _ => hs, fun h => (by cases h),
      ?_, fun h => (by cases h), fun h => (by cases h), fun h => (by cases h), fun _ => by simp⟩, hheld.close, hg.sent⟩
    rintro (h | h | h)
    · cases h
    · cases h
    · rw [hw] at h; cases h
  | serverClose hp =>
    rw [hp] at hf
    exact hg.closes (hf.opened rfl) (hf.closed rfl) (by simp only [use, hp]) (.inl rfl) rfl rfl
  | put _ hd => exact hg.stay rfl rfl (fun _ => hd) rfl
  | runLoop hr =>
    obtain ⟨hq, -, -⟩ := Bridge.runLoop_frame hr
    exact hg.stay rfl rfl (by simp only [Bridge.sent, hq]; exact hg.sent) rfl
  | resume | cancelServe | cancelCommand | shutdown | shutdownJoin | shutdownCancel | closeLoop =>
    exact hg.stay rfl rfl hg.sent rfl

/-- No call is made where the owner gives up. -/
theorem next_not_givesUp (h : Next cfg last p k p') : p.givesUp = false := by
  cases h with
  | fail hf => cases p <;> first | rfl | cases hf
  | _ => rfl

/-- Given up with a dht attached, the server is closed under it. -/
theorem serverClose_stuck (hg : Agrees cfg s x) (hs : Step cfg s a s') (hc : ¬ DhtFirst s a) :
    runs Session.step x (use s a).toList = none := by
  unfold DhtFirst at hc
  simp only [Classical.not_imp, not_not] at hc
  obtain ⟨hp, ha, hl⟩ := hc
  have hd : x.dht = .opened := by
    by_contra hn
    exact hg.held.not_live hn hl
  have hu : use s a = some .serverClose := by
    cases a with
    | call k =>
      cases hs with
      | call hn => rw [next_not_givesUp hn] at hp; cases hp
    | owner =>
      unfold use
      revert hp
      cases s.pc <;> rintro ⟨⟩ <;> rfl
    | _ => cases ha
  rw [hu]
  simp [runs, Session.step, hd]

/-- On every run, the uses the owner makes of the library are a run of the protocol if and only if it gives no
start-up up with a dht attached: after a bootstrap that raised, or a publication that came too late. -/
theorem owner_keeps_protocol {as : List (Act ν α μ ε)} (h : runs (step cfg) init as = some s) :
    (∃ x, runs Session.step .init (observed (step cfg) use init as) = some x) ↔ Meets (step cfg) DhtFirst init as :=
  observed_runs_iff (R := Agrees cfg) (fun _ _ _ _ hg hs => agrees_step hg (step_cases hs))
    (fun _ _ _ _ hg hs => serverClose_stuck hg (step_cases hs)) as init_agrees h

/-- A lookup that hits at once, a turn of the loop, and the stop. -/
def lookupTurn : List (Act Nat Nat Nat Unit) :=
  startUp ++ [.put ⟨0, 0, .resolve 9 5⟩, .owner, .owner, .call (.lookupResult (.ok (some 1))), .owner, .owner,
    .call (.tick (.ok ())), .call (.dhtTick 1 (.ok ())), .call (.nextTimeout (.ok none)), .call .wait, .shutdown 0,
    .owner, .owner, .owner]

/-- A bootstrap that raises: the server is closed under the dht. -/
def strandedDht : List (Act Nat Nat Nat Unit) :=
  [.call (.build (.ok ())), .call (.attach (.ok ())), .call (.bootstrap 0 (.error ())), .owner]

theorem owner_keeps_protocol_lookup :
    (∃ s, runs (step ⟨true, none⟩) init lookupTurn = some s ∧ s.pc = .finished ∧
      ∃ x, runs Session.step .init (observed (step ⟨true, none⟩) use init lookupTurn) = some x) ∧
    ∃ s, runs (step ⟨true, none⟩) init strandedDht = some s ∧
      ¬ ∃ x, runs Session.step .init (observed (step ⟨true, none⟩) use init strandedDht) = some x := by
  refine ⟨⟨_, rfl, rfl, (owner_keeps_protocol rfl).2 (by decide)⟩, ⟨_, rfl, fun hx => ?_⟩⟩
  exact absurd ((owner_keeps_protocol rfl).1 hx) (by decide)

end Fit

end Nwep.Runtime.Serve
