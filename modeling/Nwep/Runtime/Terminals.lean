/-
The three managed terminals side by side: `_serve`, `_connect_async` and `_stream` tear their handles
down in the same way and hand over in the same way, each with its own gaps.

A teardown is complete exactly on the tidy runs of the terminal, and an owner whose coroutine ended
without the handle object is on its way out on the runs whose cancellations it hears of.
-/
import Nwep.Runtime.ConnectAsync.Lifecycle
import Nwep.Runtime.Serve.Lifecycle
import Nwep.Runtime.Stream.Lifecycle

namespace Nwep.Runtime

open Lib

variable {ν α μ σ κ ε ρ : Type*}

/-! ## Teardown -/

/-- A finished owner closed each handle it obtained exactly once, and no server before the dht on it,
if and only if its run was tidy; the dedicated client of a stream is always closed, and its leading
response never. -/
theorem handles_released_iff_tidy :
    (∀ (cfg : Serve.Config α) (as : List (Serve.Act ν α μ ε)) (s : Serve.State ν α μ ε),
      runs (Serve.step cfg) Serve.init as = some s →
      (Meets (Serve.step cfg) (Serve.Tidy cfg) Serve.init as → Serve.InOrder s) ∧
        (s.pc = .finished →
          (s.server.Released ∧ s.dht.Released ↔ Meets (Serve.step cfg) (Serve.Tidy cfg) Serve.init as))) ∧
    (∀ (as : List (ConnectAsync.Act ε ρ)) (s : ConnectAsync.State ε ρ),
      runs ConnectAsync.step ConnectAsync.init as = some s → s.pc = .finished →
      (s.client.Released ↔ Meets ConnectAsync.step ConnectAsync.Tidy ConnectAsync.init as)) ∧
    (∀ (as : List (Stream.Act σ κ ε)) (s : Stream.State σ κ ε),
      runs Stream.step Stream.init as = some s → s.pc = .finished →
      s.client.Released ∧ (s.stream.Released ↔ Meets Stream.step Stream.Tidy Stream.init as) ∧
        s.leading.closes = 0) :=
  ⟨fun _ _ _ h => Serve.handles_released h, fun _ _ h hf => ConnectAsync.client_released h hf,
    fun _ _ h hf => Stream.handles_released h hf⟩

/-- A server with a dht, stopped and torn down. -/
def servedOnce : List (Serve.Act Nat Nat Nat Unit) :=
  Serve.startUp ++ [.shutdown 0, .owner, .owner, .owner, .shutdownJoin 0]

/-- A stream read to its end. -/
def streamedOnce : List (Stream.Act Nat Nat Unit) :=
  Stream.startUp ++ [.owner, .call (.recv (.ok ([1, 2], true))), .owner, .call (.verify (.ok ())), .owner, .owner,
    .owner]

/-- A client closed with a command of a closed loop behind the stop. -/
def closedLoopDrain : List (ConnectAsync.Act Unit Nat) :=
  let c : Cmd ConnectAsync.Request := ⟨0, 0, { method := 0, path := "/late" }⟩
  [.connect (.ok ()), .owner, .resume, .check c, .aclose 0, .acloseStop 0, .put c, .closeLoop 0, .owner, .owner, .owner]

theorem handles_released_iff_tidy_runs :
    (∃ s, runs (Serve.step ⟨true, none⟩) Serve.init servedOnce = some s ∧ s.server.Released ∧ s.dht.Released) ∧
    (∃ s, runs ConnectAsync.step ConnectAsync.init closedLoopDrain = some s ∧
      ¬ Meets ConnectAsync.step ConnectAsync.Tidy ConnectAsync.init closedLoopDrain) ∧
    (∃ s, runs Stream.step Stream.init streamedOnce = some s ∧ s.client.Released ∧ s.stream.Released ∧
      s.leading.closes = 0) := by
  have ht := handles_released_iff_tidy (ν := Nat) (α := Nat) (μ := Nat) (σ := Nat) (κ := Nat) (ε := Unit) (ρ := Nat)
  refine ⟨⟨_, rfl, ((ht.1 ⟨true, none⟩ servedOnce _ rfl).2 rfl).2 ?_⟩, ⟨_, rfl, fun hm => ?_⟩, ?_⟩
  · exact ⟨⟨rfl, rfl⟩, ⟨rfl, rfl⟩, ⟨rfl, rfl⟩, ⟨rfl, rfl⟩, ⟨rfl, rfl⟩, fun h => absurd rfl h, trivial, ⟨rfl, rfl⟩,
      trivial, trivial, trivial, trivial, trivial, trivial⟩
  · exact absurd ((ht.2.1 closedLoopDrain _ rfl rfl).2 hm) (by decide)
  · obtain ⟨hclient, hstream, hleading⟩ := ht.2.2 streamedOnce _ rfl rfl
    exact ⟨_, rfl, hclient, hstream.2 ⟨rfl, rfl, rfl, rfl, rfl, trivial, trivial, rfl, trivial, rfl, trivial, rfl, trivial,
      trivial, trivial, trivial⟩, hleading⟩

/-- A bootstrap that raises: the server is closed under the dht attached to it, which stays open. -/
theorem dht_left_open : ∃ s, runs (Serve.step (⟨true, none⟩ : Serve.Config Nat))
    (Serve.init : Serve.State Nat Nat Nat Unit)
      [.call (.build (.ok ())), .call (.attach (.ok ())), .call (.bootstrap 0 (.error ())), .owner, .owner] = some s ∧
    s.pc = .finished ∧ ¬ s.dht.Released ∧ ¬ Serve.InOrder s :=
  ⟨_, rfl, rfl, by decide, fun h => h (by decide) ⟨rfl, rfl⟩⟩

/-! ## Handover -/

/-- On a run whose cancellations are heard, a coroutine that ended without its handle object left an
owner that never serves, makes at most `rank` more steps, and ends with its handle closed. -/
theorem dropped_owner_leaves [Inhabited ν] [Inhabited σ] :
    (∀ (cfg : Serve.Config α) (as : List (Serve.Act ν α μ ε)) (s : Serve.State ν α μ ε),
      runs (Serve.step cfg) Serve.init as = some s → Meets (Serve.step cfg) Serve.Heard Serve.init as →
      s.handoff.Dropped →
      Leaves (Serve.step cfg) Serve.Heard Serve.Act.isOwner (fun t => t.pc.serving = true) Serve.Closed s.pc.rank s) ∧
    (∀ (as : List (ConnectAsync.Act ε ρ)) (s : ConnectAsync.State ε ρ),
      runs ConnectAsync.step ConnectAsync.init as = some s →
      Meets ConnectAsync.step ConnectAsync.Heard ConnectAsync.init as → s.handoff.Dropped →
      Leaves ConnectAsync.step (fun _ _ => True) ConnectAsync.Act.isOwner (fun t => t.pc.serving = true)
        ConnectAsync.Closed s.pc.rank s) ∧
    (∀ (as : List (Stream.Act σ κ ε)) (s : Stream.State σ κ ε),
      runs Stream.step Stream.init as = some s → Meets Stream.step Stream.Heard Stream.init as → s.handoff.Dropped →
      Leaves Stream.step (fun _ _ => True) Stream.Act.isOwner (fun t => t.pc.looping = true) Stream.Closed
        s.pc.rank s) :=
  ⟨fun _ _ _ h hm hd => Serve.owner_leaves h hm hd, fun _ _ h hm hd => ConnectAsync.owner_leaves h hm hd,
    fun _ _ h hm hd => Stream.owner_leaves h hm hd⟩

/-- Cancelled before the connection is up: the owner makes at most three more steps. -/
theorem dropped_owner_leaves_connecting :
    ∃ s, runs ConnectAsync.step (ConnectAsync.init : ConnectAsync.State Unit Nat) [.cancelConnect] = some s ∧
      s.handoff.Dropped ∧
      Leaves ConnectAsync.step (fun _ _ => True) ConnectAsync.Act.isOwner (fun t => t.pc.serving = true)
        ConnectAsync.Closed 3 s := by
  have ht := dropped_owner_leaves (ν := Nat) (α := Nat) (μ := Nat) (σ := Nat) (κ := Nat) (ε := Unit) (ρ := Nat)
  exact ⟨_, rfl, .inl rfl, ht.2.1 [.cancelConnect] _ rfl ⟨rfl, trivial⟩ (.inl rfl)⟩

/-- Cancelled after the publication and before the task resumes: the result is dropped, the owner
serves on, and only an `AsyncClient` could stop it. -/
theorem owner_orphaned :
    ∃ s, runs ConnectAsync.step (ConnectAsync.init : ConnectAsync.State Unit Nat)
        [.connect (.ok ()), .owner, .cancelConnect] = some s ∧
      s.handoff.Dropped ∧ s.pc.serving = true ∧
      ∀ n, ¬ Leaves ConnectAsync.step (fun _ _ => True) ConnectAsync.Act.isOwner (fun t => t.pc.serving = true)
        ConnectAsync.Closed n s :=
  ⟨_, rfl, .inl rfl, rfl, fun _ h => (h [] _ trivial rfl).1 rfl⟩

end Nwep.Runtime
