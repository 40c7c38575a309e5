/-
A streamed body from the server's loop to the consumer's `recv` calls. The server loop and the owner
threads of any number of managed streams take their steps in any order; between them is the library,
of which one thing is taken: what a client reads of its stream is what the server's library took of it,
in order, and the end is reported only for a stream the server ended and the client read whole.

The two halves keep invariants of their own. What joins them is `Transfer.Ok.received`.
-/
import Nwep.Runtime.Stream.Body
import Nwep.Runtime.Stream.Sequence
import Nwep.Server.Pump

namespace Nwep.Runtime.Transfer

open Lib
open Nwep.Server

/-- The server's loop, and the managed stream that reads each of its streams. -/
structure State (σ κ ε : Type*) where
  server : Pump.State ε
  clients : Pump.Key → Stream.State σ κ ε

def init {σ κ ε : Type*} : State σ κ ε := ⟨Pump.init, fun _ => Stream.init⟩

inductive Act (σ κ ε : Type*) where
  | server (a : Pump.Act ε)
  | client (k : Pump.Key) (a : Stream.Act σ κ ε)

variable {σ κ ε : Type*}

/-- The bytes that `stream.recv` returned, in order. -/
def received (c : Stream.State σ κ ε) : Bytes := (c.reads.map Prod.fst).flatten

section Step

variable (style : Pump.Style) (body : Bytes)

def step (s : State σ κ ε) : Act σ κ ε → Option (State σ κ ε)
  | .server a => (Pump.step style body s.server a).map fun p => { s with server := p }
  | .client k a => (Stream.step (s.clients k) a).map fun c => { s with clients := Function.update s.clients k c }

/-- What the library carries: a read continues what the server's library took of the stream, and
reports the end once the stream is ended and nothing is left to read. -/
def Carried (s : State σ κ ε) (k : Pump.Key) : Stream.Act σ κ ε → Prop
  | .call (.recv (.ok (chunk, ended))) =>
    received (s.clients k) ++ chunk <+: s.server.accepted k ∧
      (ended = true → k ∈ s.server.ended ∧ received (s.clients k) ++ chunk = s.server.accepted k)
  | _ => True

/-- The library keeps its promises on both sides, and each consumer makes its calls one after another
and loses no chunk to a cancelled call. -/
def Fair (s : State σ κ ε) : Act σ κ ε → Prop
  | .server a => Pump.Lawful body s.server a
  | .client k a => Stream.InTurn (s.clients k) a ∧ Stream.Kept (s.clients k) a ∧ Carried s k a

end Step

section Sides

variable {style : Pump.Style} {body : Bytes}

/-- What the library took of a stream is never taken back, and an ended stream stays ended. -/
theorem server_grows {p p' : Pump.State ε} {a : Pump.Act ε} (h : Pump.Step style body p a p') :
    (∀ k, p.accepted k <+: p'.accepted k) ∧ ∀ k ∈ p.ended, k ∈ p'.ended := by
  cases h with
  | @send j took hp =>
    simp only [Pump.again_accepted, Pump.again_ended]
    refine ⟨fun k => ?_, fun k hk => hk⟩
    show p.accepted k <+: Function.update p.accepted j.key _ k
    by_cases hkey : k = j.key
    · subst hkey
      rw [Function.update_self]; exact List.prefix_append _ _
    · exact Function.update_of_ne hkey _ p.accepted ▸ List.prefix_refl _
  | next =>
    simp only [Pump.again_accepted, Pump.again_ended]
    exact ⟨fun k => List.prefix_refl _, fun k hk => hk⟩
  | finish | finishFail => exact ⟨fun k => List.prefix_refl _, fun k hk => List.mem_append_left _ hk⟩
  | tick | tickFail | sendFail | move | passed | stop => exact ⟨fun k => List.prefix_refl _, fun k hk => hk⟩

/-- Only a read that returns adds to what the owner of a stream read. -/
theorem reads_step {c c' : Stream.State σ κ ε} {a : Stream.Act σ κ ε} (h : Stream.Step c a c') :
    c'.reads = c.reads ∨ ∃ r, a = .call (.recv (.ok r)) ∧ c'.reads = c.reads ++ [r] := by
  cases h with
  | @call k p hn =>
    cases k with
    | recv r =>
      cases r with
      | ok r => exact .inr ⟨r, rfl, rfl⟩
      | error e => exact .inl rfl
    | connect r | openStream r | response r | status r | headers r | peerPubkey r | verify r =>
      cases r <;> exact .inl rfl
  | _ => exact .inl rfl

/-- Of the chunks put on the queue, those that the calls returned come first. -/
theorem delivered_prefix {c : Stream.State σ κ ε} (hf : Stream.Fed c) (hr : Stream.Routed c) :
    c.delivered.reduceOption.flatten <+: received c := by
  have htaken : c.delivered.reduceOption <+: Stream.chunks c.items.taken := by
    rcases hr.taken with ⟨i, data, -, h⟩ | ⟨-, h⟩
    · rw [h]; exact List.prefix_append _ _
    · exact h ▸ List.prefix_refl _
  have hbody : Stream.chunks c.items.taken <+: c.body := by
    have hread := hf.read
    unfold Fifo.history at hread
    rw [Stream.chunks_append, List.append_assoc] at hread
    exact ⟨_, hread⟩
  obtain ⟨rest, hrest⟩ := htaken.trans hbody
  unfold received
  rw [← Stream.body_flatten, ← hrest, List.flatten_append]
  exact List.prefix_append _ _

end Sides

/-! ## The two sides together -/

/-- What the managed stream of the stream `k` keeps: its own invariants, and its place behind the server. -/
structure Client (body : Bytes) (p : Pump.State ε) (k : Pump.Key) (c : Stream.State σ κ ε) : Prop where
  inv : Stream.Inv c
  fed : Stream.Fed c
  routed : Stream.Routed c
  told : ∃ tr, Stream.Told tr c
  received : received c <+: p.accepted k
  whole : ∀ chunk, (chunk, true) ∈ c.reads → Transfer.received c = body

structure Ok (body : Bytes) (s : State σ κ ε) : Prop where
  server : Pump.Ok body s.server
  client : ∀ k, Client body s.server k (s.clients k)

section Run

variable {style : Pump.Style} {body : Bytes} {s s' : State σ κ ε} {a : Act σ κ ε} {k : Pump.Key}

theorem init_ok : Ok body (init : State σ κ ε) where
  server := Pump.init_ok
  client _ := ⟨Stream.init_inv, Stream.init_fed, Stream.init_routed, ⟨[], Stream.init_told⟩, List.nil_prefix,
    fun chunk h => by cases h⟩

/-- The server moves: what the clients read stays a part of what was taken. -/
theorem Ok.server_step {p : Pump.State ε} {a : Pump.Act ε} (ho : Ok body s) (hl : Pump.Lawful body s.server a)
    (h : Pump.Step style body s.server a p) : Ok body { s with server := p } where
  server := Pump.ok_step ho.server hl h
  client k :=
    have hc := ho.client k
    ⟨hc.inv, hc.fed, hc.routed, hc.told, hc.received.trans ((server_grows h).1 k), hc.whole⟩

/-- A client reads on: it stays behind the server, and once it read the end it has the whole body. -/
theorem Ok.read {c : Stream.State σ κ ε} {a : Stream.Act σ κ ε} (ho : Ok body s) (hcar : Carried s k a)
    (h : Stream.Step (s.clients k) a c) :
    received c <+: s.server.accepted k ∧ ∀ chunk, (chunk, true) ∈ c.reads → received c = body := by
  have hc := ho.client k
  rcases reads_step h with hreads | ⟨⟨chunk, ended⟩, rfl, hreads⟩
  · have hsame : received c = received (s.clients k) := by
      unfold received
      rw [hreads]
    rw [hsame, hreads]
    exact ⟨hc.received, hc.whole⟩
  · obtain ⟨hpre, hend⟩ := hcar
    have hgrow : received c = received (s.clients k) ++ chunk := by
      unfold received
      rw [hreads, List.map_append, List.flatten_append]; simp
    rw [hgrow]
    refine ⟨hpre, fun d hd => ?_⟩
    rw [hreads, List.mem_append, List.mem_singleton] at hd
    rcases hd with hd | hd
    · -- the body was already whole, so the library had nothing left to carry
      have hwhole := hc.whole d hd
      have hlen := (hpre.trans (ho.server.kept.accepted_prefix k)).length_le
      rw [hwhole] at hlen ⊢
      rw [List.length_append] at hlen
      have hnil : chunk = [] := List.length_eq_zero_iff.1 (by omega)
      rw [hnil, List.append_nil]
    · cases hd
      obtain ⟨hin, hall⟩ := hend rfl
      rw [hall, ho.server.kept.ended k hin]

/-- A client moves, and the others stay. -/
theorem Ok.client_step {c : Stream.State σ κ ε} {a : Stream.Act σ κ ε} (ho : Ok body s)
    (ht : Stream.InTurn (s.clients k) a) (hk : Stream.Kept (s.clients k) a) (hcar : Carried s k a)
    (h : Stream.Step (s.clients k) a c) : Ok body { s with clients := Function.update s.clients k c } where
  server := ho.server
  client := by
    refine (Function.forall_update_iff _ fun i c => Client body s.server i c).2 ⟨?_, fun i _ => ho.client i⟩
    have hc := ho.client k
    obtain ⟨tr, htold⟩ := hc.told
    obtain ⟨hrec, hwhole⟩ := ho.read hcar h
    exact ⟨Stream.inv_step hc.inv h, Stream.fed_step hc.fed h, Stream.routed_step hc.inv hc.fed hc.routed ht hk h,
      ⟨tr ++ [a], Stream.told_step hc.fed htold h⟩, hrec, hwhole⟩

theorem ok_step (ho : Ok body s) (hf : Fair body s a) (h : step style body s a = some s') : Ok body s' := by
  cases a with
  | server a =>
    simp only [step] at h
    obtain ⟨p, hp, rfl⟩ := Option.map_eq_some_iff.1 h
    exact ho.server_step hf (Pump.step_cases hp)
  | client k a =>
    simp only [step] at h
    obtain ⟨c, hc, rfl⟩ := Option.map_eq_some_iff.1 h
    obtain ⟨hturn, hkept, hcar⟩ := hf
    exact ho.client_step hturn hkept hcar (Stream.step_cases hc)

/-- On every run of the server's loop with any number of managed streams: what a consumer's `recv`
calls returned is, in order, the front of the body, and once one of them returned `None` it is the body. -/
theorem transferred {as : List (Act σ κ ε)} (h : runs (step style body) init as = some s)
    (hm : Meets (step style body) (Fair body) init as) (k : Pump.Key) :
    (s.clients k).delivered.reduceOption.flatten <+: body ∧
      (none ∈ (s.clients k).delivered → (s.clients k).delivered.reduceOption.flatten = body) := by
  have ho : Ok body s := meets_inv (fun _ _ _ hi hc h => ok_step hi hc h) as init_ok hm h
  obtain ⟨-, hfed, hrouted, ⟨tr, htold⟩, hrec, hwhole⟩ := ho.client k
  have hfront := delivered_prefix hfed hrouted
  refine ⟨(hfront.trans hrec).trans (ho.server.kept.accepted_prefix k), fun hn => ?_⟩
  have hend : .streamEnd ∈ (s.clients k).items.history := List.mem_append_left _ (hrouted.ended hn).1
  obtain ⟨rs, chunk, hreads⟩ := htold.ended (.inr hend)
  rw [hrouted.whole hfed hn]
  exact hwhole chunk (by rw [hreads]; simp)

/-- A client's reads of one byte and the end. -/
def readByte : List (Stream.Act Nat Nat Unit) :=
  Stream.startUp ++ [.owner, .call (.recv (.ok ([1], true))), .owner, .call (.verify (.ok ())), .owner, .recv 0,
    .start 0, .take 0, .deliver 0, .recv 1, .start 1, .take 1, .deliver 1]

/-- A stream of one byte, read to its end. -/
def oneByte : List (Act Nat Nat Unit) :=
  [.server (.tick [(1, 4)] (.ok ())), .server .loop, .server .loop, .server (.send (.ok 1)),
    .server (.finish (.ok ()))] ++
  readByte.map (.client (1, 4))

theorem transferred_byte : ∃ s, runs (step .untilRefused [1]) init oneByte = some s ∧
    (s.clients (1, 4)).delivered = [some [1], none] ∧ (s.clients (1, 4)).delivered.reduceOption.flatten = [1] := by
  refine ⟨_, rfl, rfl, (transferred (show runs (step .untilRefused [1]) init oneByte = some _ from rfl)
      ?_ (1, 4)).2 (show (none : Option Bytes) ∈ [some [1], none] by decide)⟩
  have q : True ∧ True ∧ True := ⟨trivial, trivial, trivial⟩
  refine ⟨show [(1, 4)].Nodup by decide, trivial, trivial, show 1 ≤ 1 by decide, trivial, ?_⟩
  refine ⟨q, q, q, q, q, q, q, q, q, ⟨trivial, trivial, ?_⟩, q, q, q, ⟨?_, q.2⟩, q, ⟨trivial, ?_, trivial⟩, q,
    ⟨?_, q.2⟩, q, ⟨trivial, ?_, trivial⟩, q, trivial⟩
  · exact ⟨List.prefix_refl [1], fun _ => ⟨List.mem_singleton.2 rfl, rfl⟩⟩
  · intro j h; cases h
  · intro h; cases h
  · rintro (_ | j) h <;> cases h
  · intro h; cases h

end Run

end Nwep.Runtime.Transfer
