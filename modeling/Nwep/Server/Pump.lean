/-
The server side of a streamed body: the loop that the streaming servers of the examples and tests
run. A handler parks the stream it began; after each tick the loop takes the parked streams up,
offers each the rest of the body until the library takes no more, and ends the stream once the whole
body was taken. An exception of a library call ends the loop.

The programs differ in how they leave the sends of one pass (`Style`); what holds of their runs does
not depend on it.
-/
import Nwep.Boundary
import Nwep.Lib.Observe
import Mathlib.Data.List.Perm.Subperm
import Mathlib.Logic.Function.Basic

namespace Nwep.Server.Pump

open Lib

/-- A stream as the library names it: `(conn_id, stream_id)`. -/
abbrev Key := Nat × Nat

/-- `[conn, stream, sent]`. -/
structure Job where
  key : Key
  sent : Nat
deriving Repr, DecidableEq

/-! ## The programs -/

/-- How a program leaves the sends of one pass. -/
inductive Style where
  | untilRefused -- `while sent < len(BODY): … if took == 0: break`
  | flagged -- the same loop with a flag `blocked`, asked before the stream is kept
  | oneSend -- one `stream_send` a pass
deriving Repr, DecidableEq

/-- Another send follows one that took `took` bytes, when the body is not all sent. -/
def Style.again : Style → Nat → Bool
  | .untilRefused, took | .flagged, took => took != 0
  | .oneSend, _ => false

/-- The stream is kept for the next pass, `took` being what the last send took (`none` without one). -/
def Style.keeps (sent size : Nat) (took : Option Nat) : Style → Bool
  | .untilRefused | .oneSend => sent < size
  | .flagged => sent < size && took == some 0

/-! ## The loop -/

/-- The next statement of the loop. -/
inductive Pc (ε : Type*) where
  | tick -- while not stop.is_set(): server.tick(now_ms())
  | move -- while pending: active.append([*pending.pop(0), 0])
  | next -- for conn, stream, sent in active
  | send (j : Job) -- took = srv.stream_send(conn, stream, BODY[sent:])
  | finish (j : Job) -- srv.stream_end(conn, stream)
  | stopped
  | died (e : ε) (j : Option Job) -- the exception, and the stream whose send raised it
deriving Repr, DecidableEq

/-- The loop's variables; and what the library was told: the streams opened, the bytes it took for
each, and the streams ended, oldest first. -/
structure State (ε : Type*) where
  pc : Pc ε
  pending : List Key
  active : List Job
  still : List Job
  opened : List Key
  accepted : Key → Bytes
  ended : List Key

def init {ε : Type*} : State ε := ⟨.tick, [], [], [], [], fun _ => [], []⟩

/-- A step: a library call with what it returns or raises (a tick also with the streams its handlers
began), or the loop going on without one. -/
inductive Act (ε : Type*) where
  | tick (requests : List Key) (r : Except ε Unit)
  | send (r : Except ε Nat)
  | finish (r : Except ε Unit)
  | loop
  | stop

section Step

variable {ε : Type*} (style : Style) (body : Bytes)

/-- Past the sends of this pass on the stream. -/
def leave (s : State ε) (j : Job) (took : Option Nat) : State ε :=
  if style.keeps j.sent body.length took then { s with pc := .next, still := s.still ++ [j] }
  else { s with pc := .finish j }

/-- `while sent < len(BODY)`, `took` as for `leave`. -/
def again (s : State ε) (j : Job) (took : Option Nat) : State ε :=
  if j.sent < body.length ∧ (took.map style.again).getD true = true then { s with pc := .send j }
  else leave style body s j took

/-- `stream_send` took the first `took` bytes of `BODY[sent:]`. -/
def State.take (s : State ε) (j : Job) (took : Nat) : State ε :=
  { s with accepted := Function.update s.accepted j.key (s.accepted j.key ++ (body.drop j.sent).take took) }

def step (s : State ε) : Act ε → Option (State ε)
  | .tick requests r =>
    match s.pc with
    | .tick =>
      let s := { s with pending := s.pending ++ requests, opened := s.opened ++ requests }
      match r with
      | .ok _ => some { s with pc := .move }
      | .error e => some { s with pc := .died e none }
    | _ => none
  | .send r =>
    match s.pc, r with
    | .send j, .ok took => some (again style body (s.take body j took) { j with sent := j.sent + took } (some took))
    | .send j, .error e => some { s with pc := .died e (some j) }
    | _, _ => none
  | .finish r =>
    match s.pc, r with
    | .finish j, .ok _ => some { s with pc := .next, ended := s.ended ++ [j.key] }
    | .finish j, .error e => some { s with pc := .died e none, ended := s.ended ++ [j.key] }
    | _, _ => none
  | .loop =>
    match s.pc, s.active with
    | .move, active => some { s with pc := .next, active := active ++ s.pending.map (⟨·, 0⟩), pending := [] }
    | .next, [] => some { s with pc := .tick, active := s.still, still := [] }
    | .next, j :: rest => some (again style body { s with active := rest } j none)
    | _, _ => none
  | .stop =>
    match s.pc with
    | .tick => some { s with pc := .stopped }
    | _ => none

/-- The bytes offered to `stream_send`. -/
def Pc.offered : Pc ε → Bytes
  | .send j => body.drop j.sent
  | _ => []

/-- What the library promises: `stream_send` returns a count from 0 to `len(body)`, and a stream is
begun once. -/
def Lawful (s : State ε) : Act ε → Prop
  | .send (.ok took) => took ≤ (s.pc.offered body).length
  | .tick requests _ => (s.opened ++ requests).Nodup
  | _ => True

instance (s : State ε) : ∀ a, Decidable (Lawful body s a)
  | .send (.ok _) => inferInstanceAs (Decidable (_ ≤ _))
  | .tick _ _ => inferInstanceAs (Decidable (List.Nodup _))
  | .send (.error _) | .finish _ | .loop | .stop => inferInstanceAs (Decidable True)

end Step

section Again

variable {ε : Type*} (style : Style) (body : Bytes) (s : State ε) (j : Job) (took : Option Nat)

/-- Going on with a stream takes nothing and ends nothing. -/
theorem again_frame : (again style body s j took).accepted = s.accepted ∧
    (again style body s j took).ended = s.ended := by
  unfold again leave
  split
  · exact ⟨rfl, rfl⟩
  · split <;> exact ⟨rfl, rfl⟩

@[simp] theorem again_accepted : (again style body s j took).accepted = s.accepted := (again_frame ..).1
@[simp] theorem again_ended : (again style body s j took).ended = s.ended := (again_frame ..).2

end Again

/-! ## What a step can do -/

section Cases

variable {ε : Type*} {style : Style} {body : Bytes} {s s' : State ε} {a : Act ε}

/-- The steps one by one, each with what it needs and the state it leaves. -/
inductive Step (style : Style) (body : Bytes) (s : State ε) : Act ε → State ε → Prop
  | tick {requests : List Key} {u : Unit} : s.pc = .tick → Step style body s (.tick requests (.ok u))
      { s with pc := .move, pending := s.pending ++ requests, opened := s.opened ++ requests }
  | tickFail {requests : List Key} {e : ε} : s.pc = .tick → Step style body s (.tick requests (.error e))
      { s with pc := .died e none, pending := s.pending ++ requests, opened := s.opened ++ requests }
  | send {j : Job} {took : Nat} : s.pc = .send j → Step style body s (.send (.ok took))
      (again style body (s.take body j took) { j with sent := j.sent + took } (some took))
  | sendFail {j : Job} {e : ε} : s.pc = .send j → Step style body s (.send (.error e)) { s with pc := .died e (some j) }
  | finish {j : Job} {u : Unit} : s.pc = .finish j → Step style body s (.finish (.ok u))
      { s with pc := .next, ended := s.ended ++ [j.key] }
  | finishFail {j : Job} {e : ε} : s.pc = .finish j → Step style body s (.finish (.error e))
      { s with pc := .died e none, ended := s.ended ++ [j.key] }
  | move : s.pc = .move → Step style body s .loop
      { s with pc := .next, active := s.active ++ s.pending.map (⟨·, 0⟩), pending := [] }
  | passed : s.pc = .next → s.active = [] →
      Step style body s .loop { s with pc := .tick, active := s.still, still := [] }
  | next {j : Job} {rest : List Job} : s.pc = .next → s.active = j :: rest →
      Step style body s .loop (again style body { s with active := rest } j none)
  | stop : s.pc = .tick → Step style body s .stop { s with pc := .stopped }

theorem step_cases (h : step style body s a = some s') : Step style body s a s' := by
  cases a with
  | tick requests r =>
    simp only [step] at h
    split at h
    · rename_i hp
      cases r with
      | ok u => cases h; exact .tick hp
      | error e => cases h; exact .tickFail hp
    · cases h
  | send r =>
    simp only [step] at h
    split at h
    · rename_i hp; cases h; exact .send hp
    · rename_i hp; cases h; exact .sendFail hp
    · cases h
  | finish r =>
    simp only [step] at h
    split at h
    · rename_i hp; cases h; exact .finish hp
    · rename_i hp; cases h; exact .finishFail hp
    · cases h
  | loop =>
    simp only [step] at h
    split at h
    · rename_i hp; cases h; exact .move hp
    · rename_i hp ha; cases h; exact .passed hp ha
    · rename_i hp ha; cases h; exact .next hp ha
    · cases h
  | stop =>
    simp only [step] at h
    split at h
    · rename_i hp; cases h; exact .stop hp
    · cases h

end Cases

/-! ## The streams and what was taken of them -/

section Kept

variable {ε : Type*} {style : Style} {body : Bytes} {s s' : State ε} {a : Act ε} {l : List Job} {j : Job}

/-- The stream in the loop's hands. -/
def Pc.hand : Pc ε → List Job
  | .send j | .finish j | .died _ (some j) => [j]
  | _ => []

/-- The streams not ended, `l` being those out of the lists. -/
def State.jobs (s : State ε) (l : List Job) : List Job := l ++ s.active ++ s.still ++ s.pending.map (⟨·, 0⟩)

/-- Each stream opened is ended or kept, once; of a kept one the library took what the loop counted, of
an ended one the whole body. -/
structure Kept (body : Bytes) (l : List Job) (s : State ε) : Prop where
  keys : (s.ended ++ (s.jobs l).map Job.key).Perm s.opened
  nodup : s.opened.Nodup
  sent : ∀ j ∈ s.jobs l, j.sent ≤ body.length ∧ s.accepted j.key = body.take j.sent
  ended : ∀ k ∈ s.ended, s.accepted k = body
  unopened : ∀ k, k ∉ s.opened → s.accepted k = []

structure Ok (body : Bytes) (s : State ε) : Prop where
  kept : Kept body s.pc.hand s
  sending : ∀ j, s.pc = .send j → j.sent < body.length
  finishing : ∀ j, s.pc = .finish j → j.sent = body.length

theorem init_ok : Ok body (init : State ε) where
  kept := ⟨.nil, .nil, fun j h => (by cases h), fun k h => (by cases h), fun k _ => rfl⟩
  sending j h := by cases h
  finishing j h := by cases h

/-- The streams are the same ones in another order, and nothing was taken or ended. -/
theorem Kept.mono {l' : List Job} (hk : Kept body l s) (hj : (s'.jobs l').Perm (s.jobs l))
    (hopen : s'.opened = s.opened) (hacc : s'.accepted = s.accepted) (hend : s'.ended = s.ended) : Kept body l' s' where
  keys := by rw [hend, hopen]; exact ((hj.map _).append_left _).trans hk.keys
  nodup := by rw [hopen]; exact hk.nodup
  sent j h := by rw [hacc]; exact hk.sent j (hj.subset h)
  ended k h := by rw [hacc]; exact hk.ended k (by rwa [hend] at h)
  unopened k h := by rw [hacc]; exact hk.unopened k (by rwa [hopen] at h)

/-- Past the sends of a pass: the stream is kept, unless its whole body was taken. -/
theorem Kept.leave {took : Option Nat} (hk : Kept body [j] s)
    (ht : style = .flagged → j.sent < body.length → took = some 0) : Ok body (leave style body s j took) := by
  have hkeeps : style.keeps j.sent body.length took = decide (j.sent < body.length) := by
    cases style with
    | untilRefused | oneSend => rfl
    | flagged =>
      unfold Style.keeps
      by_cases hlt : j.sent < body.length
      · rw [ht rfl hlt]; simp
      · simp [hlt]
  unfold Pump.leave
  rw [hkeeps]
  by_cases hlt : j.sent < body.length
  · rw [if_pos (by simpa using hlt)]
    refine ⟨hk.mono ?_ rfl rfl rfl, fun i h => (by cases h), fun i h => by cases h⟩
    -- from the hand to the end of the kept ones
    show ([] ++ s.active ++ (s.still ++ [j]) ++ s.pending.map _).Perm ([j] ++ s.active ++ s.still ++ s.pending.map _)
    simp only [List.nil_append, List.append_assoc, List.singleton_append]
    rw [← List.append_assoc, ← List.append_assoc]
    exact List.perm_middle
  · rw [if_neg (by simpa using hlt)]
    have hle := (hk.sent j (by simp [State.jobs])).1
    refine ⟨hk.mono (.refl _) rfl rfl rfl, fun i h => (by cases h), fun i h => ?_⟩
    cases h; omega

/-- Another send, or past the sends of the pass. -/
theorem Kept.again {took : Option Nat} (hk : Kept body [j] s) : Ok body (again style body s j took) := by
  unfold Pump.again
  by_cases hc : j.sent < body.length ∧ (took.map style.again).getD true = true
  · rw [if_pos hc]
    refine ⟨hk.mono (.refl _) rfl rfl rfl, fun i h => ?_, fun i h => by cases h⟩
    cases h; exact hc.1
  · rw [if_neg hc]
    refine hk.leave ?_
    rintro rfl hlt
    -- the loop was left with bytes to send, so the last send took nothing
    have hagain : ¬ (took.map (Style.again .flagged)).getD true = true := fun h => hc ⟨hlt, h⟩
    cases took with
    | none => exact absurd rfl hagain
    | some n =>
      have hn : n = 0 := by simpa [Style.again] using hagain
      rw [hn]

/-- The keys of the streams are distinct, the one in hand from the others and from the ended ones. -/
theorem Kept.distinct (hk : Kept body [j] s) :
    j.key ∉ s.ended ∧ ∀ i ∈ s.active ++ s.still ++ s.pending.map (⟨·, 0⟩), i.key ≠ j.key := by
  have hnd : (s.ended ++ (s.jobs [j]).map Job.key).Nodup := hk.keys.nodup_iff.2 hk.nodup
  simp only [State.jobs, List.cons_append, List.map_cons] at hnd
  obtain ⟨-, hjobs, hdisj⟩ := List.nodup_append.1 hnd
  refine ⟨fun h => hdisj _ h _ List.mem_cons_self rfl, fun i hi he => ?_⟩
  exact (List.nodup_cons.1 hjobs).1 (List.mem_map.2 ⟨i, hi, he⟩)

/-- The library took the next bytes of the stream in hand. -/
theorem Kept.take {took : Nat} (hk : Kept body [j] s) (ht : took ≤ (body.drop j.sent).length) :
    Kept body [{ j with sent := j.sent + took }] (s.take body j took) := by
  obtain ⟨hend, hother⟩ := hk.distinct
  obtain ⟨hle, hacc⟩ := hk.sent j (by simp [State.jobs])
  have hopen : j.key ∈ s.opened := hk.keys.subset (List.mem_append_right _ (by simp [State.jobs]))
  refine ⟨hk.keys, hk.nodup, fun i hi => ?_, fun k h => ?_, fun k h => ?_⟩
  · simp only [State.jobs, List.cons_append, List.mem_cons] at hi
    rcases hi with rfl | hi
    · rw [List.length_drop] at ht
      refine ⟨by show j.sent + took ≤ _; omega, ?_⟩
      show Function.update s.accepted j.key _ j.key = _
      rw [Function.update_self, hacc, List.take_add]
    · have hi' : i ∈ s.jobs [j] := by
        simp only [State.jobs, List.cons_append]
        exact List.mem_cons_of_mem _ hi
      refine ⟨(hk.sent i hi').1, ?_⟩
      show Function.update s.accepted j.key _ i.key = _
      rw [Function.update_of_ne (hother i hi)]; exact (hk.sent i hi').2
  · show Function.update s.accepted j.key _ k = _
    rw [Function.update_of_ne (by rintro rfl; exact hend h)]; exact hk.ended k h
  · show Function.update s.accepted j.key _ k = _
    rw [Function.update_of_ne (by rintro rfl; exact h hopen)]; exact hk.unopened k h

/-- The stream in hand, its body taken whole, is ended. -/
theorem Kept.finish (hk : Kept body [j] s) (hj : j.sent = body.length) (hs : s'.jobs [] = s.jobs [])
    (hopen : s'.opened = s.opened) (hacc : s'.accepted = s.accepted) (hend : s'.ended = s.ended ++ [j.key]) :
    Kept body [] s' := by
  have hjobs : s.jobs [j] = j :: s.jobs [] := by simp [State.jobs]
  have hin := hk.sent j (by rw [hjobs]; exact List.mem_cons_self)
  refine ⟨?_, by rw [hopen]; exact hk.nodup, fun i hi => ?_, fun k h => ?_, fun k h => ?_⟩
  · have hkeys := hk.keys
    rw [hjobs, List.map_cons] at hkeys
    rw [hend, hs, hopen, List.append_assoc, List.singleton_append]; exact hkeys
  · rw [hacc]
    exact hk.sent i (by rw [hjobs]; exact List.mem_cons_of_mem _ (by rwa [hs] at hi))
  · rw [hacc]
    rw [hend] at h
    rcases List.mem_append.1 h with h | h
    · exact hk.ended k h
    · rw [List.mem_singleton.1 h, hin.2, hj, List.take_length]
  · rw [hacc]; exact hk.unopened k (by rwa [hopen] at h)

/-- The tick's handlers began streams and parked them. -/
theorem Kept.park {requests : List Key} (hk : Kept body [] s) (hn : (s.opened ++ requests).Nodup)
    (hs : s'.jobs [] = s.jobs [] ++ requests.map (⟨·, 0⟩)) (hopen : s'.opened = s.opened ++ requests)
    (hacc : s'.accepted = s.accepted) (hend : s'.ended = s.ended) : Kept body [] s' := by
  have hnew : ∀ k ∈ requests, k ∉ s.opened := by
    intro k hk' ho
    exact (List.nodup_append.1 hn).2.2 k ho k hk' rfl
  refine ⟨?_, by rw [hopen]; exact hn, fun i hi => ?_, fun k h => ?_, fun k h => ?_⟩
  · have hmap : (requests.map fun k => (⟨k, 0⟩ : Job)).map Job.key = requests := by
      rw [List.map_map]; exact List.map_id' requests
    rw [hend, hs, hopen, List.map_append, hmap, ← List.append_assoc]
    exact hk.keys.append_right _
  · rw [hacc]
    rw [hs] at hi
    rcases List.mem_append.1 hi with hi | hi
    · exact hk.sent i hi
    · obtain ⟨k, hk', rfl⟩ := List.mem_map.1 hi
      exact ⟨Nat.zero_le _, by rw [hk.unopened k (hnew k hk')]; rfl⟩
  · rw [hacc]; exact hk.ended k (by rwa [hend] at h)
  · rw [hacc]
    rw [hopen, List.mem_append, not_or] at h
    exact hk.unopened k h.1

/-- What the library took of a stream is a front of the body. -/
theorem Kept.accepted_prefix (hk : Kept body l s) (k : Key) : s.accepted k <+: body := by
  by_cases hopen : k ∈ s.opened
  · rcases List.mem_append.1 (hk.keys.symm.subset hopen) with hend | hjob
    · exact hk.ended k hend ▸ List.prefix_refl _
    · obtain ⟨j, hj, rfl⟩ := List.mem_map.1 hjob
      rw [(hk.sent j hj).2]; exact List.take_prefix _ _
  · rw [hk.unopened k hopen]; exact List.nil_prefix

theorem ok_step (ho : Ok body s) (hl : Lawful body s a) (h : Step style body s a s') : Ok body s' := by
  have hk := ho.kept
  cases h with
  | tick hp | tickFail hp =>
    rw [hp] at hk
    refine ⟨hk.park hl ?_ rfl rfl rfl, fun i h => (by cases h), fun i h => by cases h⟩
    simp only [State.jobs, List.map_append, List.append_assoc]
  | send hp =>
    rw [hp] at hk
    simp only [Lawful, hp] at hl
    exact (hk.take hl).again
  | sendFail hp =>
    rw [hp] at hk
    exact ⟨hk.mono (.refl _) rfl rfl rfl, fun i h => (by cases h), fun i h => by cases h⟩
  | finish hp | finishFail hp =>
    have hj := ho.finishing _ hp
    rw [hp] at hk
    exact ⟨hk.finish hj rfl rfl rfl rfl, fun i h => (by cases h), fun i h => by cases h⟩
  | move hp =>
    rw [hp] at hk
    refine ⟨hk.mono ?_ rfl rfl rfl, fun i h => (by cases h), fun i h => by cases h⟩
    -- the parked streams pass the kept ones
    simp only [State.jobs, Pc.hand, List.nil_append, List.map_nil, List.append_nil, List.append_assoc]
    exact List.perm_append_comm.append_left _
  | passed hp ha =>
    rw [hp] at hk
    refine ⟨hk.mono ?_ rfl rfl rfl, fun i h => (by cases h), fun i h => by cases h⟩
    simp only [State.jobs, Pc.hand, ha, List.nil_append, List.append_nil]
    exact .refl _
  | @next j rest hp ha =>
    rw [hp] at hk
    refine Kept.again (hk.mono ?_ rfl rfl rfl)
    simp only [State.jobs, Pc.hand, ha, List.nil_append, List.cons_append]
    exact .refl _
  | stop hp =>
    rw [hp] at hk
    exact ⟨hk.mono (.refl _) rfl rfl rfl, fun i h => (by cases h), fun i h => by cases h⟩

/-- On every run of the loop, in each of its styles, what the library took of a stream is a prefix of
the body; a stream is ended once, and only with its whole body taken; each send offers a stream that
is not ended its rest, from the first byte not taken on; and every stream opened is ended or kept. -/
theorem bodies_streamed {as : List (Act ε)} (h : runs (step style body) init as = some s)
    (hm : Meets (step style body) (Lawful body) init as) :
    (∀ k, s.accepted k <+: body) ∧ s.ended.Nodup ∧ (∀ k ∈ s.ended, s.accepted k = body) ∧
      (∀ j, s.pc = .send j → j.key ∉ s.ended ∧ body = s.accepted j.key ++ body.drop j.sent ∧ j.sent < body.length) ∧
      (s.ended ++ (s.jobs s.pc.hand).map Job.key).Perm s.opened := by
  have ho : Ok body s := meets_inv (fun _ _ _ hi hc h => ok_step hi hc (step_cases h)) as init_ok hm h
  have hk := ho.kept
  have hnd : (s.ended ++ (s.jobs s.pc.hand).map Job.key).Nodup := hk.keys.nodup_iff.2 hk.nodup
  refine ⟨hk.accepted_prefix, (List.nodup_append.1 hnd).1, hk.ended, fun j hp => ?_, hk.keys⟩
  rw [hp] at hk
  refine ⟨hk.distinct.1, ?_, ho.sending j hp⟩
  rw [(hk.sent j (by simp [State.jobs, Pc.hand])).2, List.take_append_drop]

/-- A body of three bytes that the library takes in two passes. -/
def twoPasses : List (Act Unit) :=
  [.tick [(1, 4)] (.ok ()), .loop, .loop, .send (.ok 2), .send (.ok 0), .loop, .tick [] (.ok ()), .loop, .loop,
    .send (.ok 1), .finish (.ok ()), .loop]

theorem bodies_streamed_two : ∃ s, runs (step .flagged [1, 2, 3]) init twoPasses = some s ∧ s.ended = [(1, 4)] ∧
    ∀ k ∈ s.ended, s.accepted k = [1, 2, 3] := by
  have hl : Meets (step .flagged [1, 2, 3]) (Lawful [1, 2, 3]) init twoPasses := by decide
  refine ⟨_, rfl, rfl,
    (bodies_streamed (show runs (step .flagged [1, 2, 3]) init twoPasses = some _ from rfl) hl).2.2.1⟩

end Kept

/-! ## Progress

A pass of the loop is from one tick to the next. When the library refuses no stream its first send of a pass,
each pass brings every stream on by at least a byte, whatever the others do.
-/

section Progress

variable {ε : Type*} {style : Style} {body : Bytes} {s s' : State ε} {a : Act ε} {k : Key} {n : Nat}
  {last : Option (Act ε)}

/-- The thread has ended. -/
def Pc.gone : Pc ε → Prop
  | .stopped | .died .. => True
  | _ => False

end Progress

end Nwep.Server.Pump
