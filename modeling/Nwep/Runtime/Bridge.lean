/-
The actor bridge of the managed runtime: commands cross to an owner thread on a queue, each with
the future its caller awaits and that future's event loop, and an outcome crosses back as a
callback scheduled onto the loop (`_resolve` with a result, `_reject` with an exception), unless
the loop is closed, when `call_soon_threadsafe` raises.

`Bridge.Ok held` is the invariant both managed handles keep, with `held` the command in the
owner's hands: every command taken from the queue is held, answered by exactly one callback, or
its loop is closed; and no callback ever finds its future completed.
-/
import Nwep.Lib.Fifo
import Mathlib.Data.List.Nodup
import Mathlib.Logic.Function.Basic

namespace Nwep.Runtime

open Lib

/-- What the runtime's code can see raised: an exception of a library-backed call, one of its own,
or the `RuntimeError` of a closed event loop. -/
inductive Exc (ε : Type*) where
  | raised (e : ε)
  | networkClosed (message : String)
  | identityNotFound (message : String)
  | loopClosed
deriving Repr, DecidableEq

/-! ## Commands, futures and callbacks -/

/-- A command with its payload. `id` names the call that put it and the future that call awaits,
`loop` is the event loop of that future. -/
structure Cmd (κ : Type*) where
  id : Nat
  loop : Nat
  payload : κ
deriving Repr, DecidableEq

/-- What a command queue carries: commands, and the sentinel `_STOP`. -/
inductive Item (κ : Type*) where
  | cmd (c : Cmd κ)
  | stop
deriving Repr, DecidableEq

/-- The commands among queue items, in order. -/
def cmds {κ : Type*} (l : List (Item κ)) : List (Cmd κ) :=
  l.filterMap fun
    | .cmd c => some c
    | .stop => none

/-- An asyncio future: `set_result` stores `.ok`, `set_exception` stores `.error`. -/
inductive Fut (ε β : Type*) where
  | pending
  | cancelled
  | done (o : Except ε β)

namespace Fut

variable {ε β : Type*}

/-- `set_result` or `set_exception`; `none` stands for `InvalidStateError`. -/
def set (f : Fut ε β) (o : Except ε β) : Option (Fut ε β) :=
  match f with
  | .pending => some (.done o)
  | _ => none

/-- `_resolve` and `_reject`: set the future, unless it was cancelled. -/
def settle (f : Fut ε β) (o : Except ε β) : Option (Fut ε β) :=
  match f with
  | .cancelled => some .cancelled
  | f => f.set o

/-- The awaiting task was cancelled: a completed future stays as it is. -/
def cancel (f : Fut ε β) : Fut ε β :=
  match f with
  | .pending => .cancelled
  | f => f

end Fut

/-- A callback handed to `call_soon_threadsafe`: `_resolve` or `_reject` for the future `id`. -/
structure Callback (ε β : Type*) where
  id : Nat
  loop : Nat
  outcome : Except ε β

/-! ## The bridge -/

structure Bridge (κ ε β : Type*) where
  queue : Fifo (Item κ)
  futs : Nat → Fut ε β
  -- the callbacks scheduled and not yet run, then all ever scheduled, oldest first
  ready : List (Callback ε β)
  scheduled : List (Callback ε β)
  -- the futures callbacks completed, with what they set
  completed : List (Nat × Except ε β)
  closed : Nat → Bool
  -- some callback raised `InvalidStateError`
  fault : Bool

namespace Bridge

variable {κ ε β : Type*}

def init : Bridge κ ε β :=
  ⟨.empty, fun _ => .pending, [], [], [], fun _ => false, false⟩

/-- The commands ever put, in the order of the puts. -/
def sent (b : Bridge κ ε β) : List (Cmd κ) := cmds b.queue.history

/-- A call puts its command, with a future of its own. -/
def put (b : Bridge κ ε β) (c : Cmd κ) : Option (Bridge κ ε β) :=
  if c.id ∈ b.sent.map Cmd.id then none else some { b with queue := b.queue.put (.cmd c) }

def putStop (b : Bridge κ ε β) : Bridge κ ε β := { b with queue := b.queue.put .stop }

/-- `get_nowait`, or a `get` that found an item: `none` stands for `queue.Empty`. -/
def get (b : Bridge κ ε β) : Option (Item κ × Bridge κ ε β) :=
  match b.queue.get with
  | none => none
  | some (x, q) => some (x, { b with queue := q })

/-- `cmd.loop.call_soon_threadsafe(...)`; `none` when the loop is closed and the call raises. -/
def callSoon (b : Bridge κ ε β) (c : Cmd κ) (o : Except ε β) : Option (Bridge κ ε β) :=
  if b.closed c.loop then none
  else some { b with ready := b.ready ++ [⟨c.id, c.loop, o⟩], scheduled := b.scheduled ++ [⟨c.id, c.loop, o⟩] }

/-- The callback `x` runs `_resolve` or `_reject` on its future. -/
def runCallback (b : Bridge κ ε β) (x : Callback ε β) : Bridge κ ε β :=
  match (b.futs x.id).settle x.outcome with
  | none => { b with fault := true }
  | some (.done o) =>
    { b with futs := Function.update b.futs x.id (.done o), completed := b.completed ++ [(x.id, o)] }
  | some _ => b

/-- The loop `l`, still open, runs the oldest of its callbacks. -/
def runLoop (b : Bridge κ ε β) (l : Nat) : Option (Bridge κ ε β) :=
  if b.closed l then none
  else match b.ready.find? (·.loop == l) with
    | none => none
    | some x => some (runCallback { b with ready := b.ready.eraseP (·.loop == l) } x)

/-- The task awaiting the future `i` is cancelled. -/
def cancel (b : Bridge κ ε β) (i : Nat) : Bridge κ ε β :=
  { b with futs := Function.update b.futs i (b.futs i).cancel }

def closeLoop (b : Bridge κ ε β) (l : Nat) : Bridge κ ε β :=
  { b with closed := Function.update b.closed l true }

/-- A callback was scheduled for the command `c`. -/
def Answered (b : Bridge κ ε β) (c : Cmd κ) : Prop := ∃ x ∈ b.scheduled, x.id = c.id

instance (b : Bridge κ ε β) (c : Cmd κ) : Decidable (b.Answered c) :=
  inferInstanceAs (Decidable (∃ x ∈ b.scheduled, x.id = c.id))

/-- Nobody is left to hear of a waiting command: the loop of each is closed. -/
def Deserted (b : Bridge κ ε β) : Prop := ∀ c ∈ cmds b.queue.waiting, b.closed c.loop = true

end Bridge

/-! ## Commands among queue items -/

section Cmds

variable {κ : Type*}

@[simp] theorem cmds_nil : cmds ([] : List (Item κ)) = [] := rfl

@[simp] theorem cmds_cmd (c : Cmd κ) (l : List (Item κ)) : cmds (.cmd c :: l) = c :: cmds l := rfl

@[simp] theorem cmds_stop (l : List (Item κ)) : cmds (.stop :: l) = cmds l := rfl

@[simp] theorem cmds_append (l m : List (Item κ)) : cmds (l ++ m) = cmds l ++ cmds m :=
  List.filterMap_append

theorem mem_cmds {c : Cmd κ} {l : List (Item κ)} : c ∈ cmds l ↔ .cmd c ∈ l := by
  unfold cmds
  rw [List.mem_filterMap]
  constructor
  · rintro ⟨x, hx, h⟩
    cases x with
    | cmd d => simp only [Option.some.injEq] at h; exact h ▸ hx
    | stop => cases h
  · intro h; exact ⟨_, h, rfl⟩

end Cmds

/-! ## The invariant of the bridge -/

namespace Bridge

variable {κ ε β : Type*} {b b' : Bridge κ ε β} {held : Option (Cmd κ)} {c : Cmd κ}

/-- The bridge with the owner holding the command `held`. -/
structure Ok (held : Option (Cmd κ)) (b : Bridge κ ε β) : Prop where
  ids : (b.sent.map Cmd.id).Nodup
  heldTaken : ∀ c, held = some c → c ∈ cmds b.queue.taken
  schedFrom : ∀ x ∈ b.scheduled, ∃ c ∈ cmds b.queue.taken, c.id = x.id ∧ c.loop = x.loop ∧ held ≠ some c
  schedIds : (b.scheduled.map Callback.id).Nodup
  readySub : b.ready.Sublist b.scheduled
  readyFut : ∀ x ∈ b.ready, ∀ o, b.futs x.id ≠ .done o
  doneFrom : ∀ i o, b.futs i = .done o → ∃ x ∈ b.scheduled, x.id = i ∧ x.outcome = o
  completed : ∀ i o, (i, o) ∈ b.completed ↔ b.futs i = .done o
  completedIds : (b.completed.map Prod.fst).Nodup
  answered : ∀ c ∈ cmds b.queue.taken, held = some c ∨ b.closed c.loop = true ∨ b.Answered c
  noFault : b.fault = false

theorem init_ok : (init : Bridge κ ε β).Ok none := by
  constructor <;> simp [init, sent, Fifo.empty, Fifo.history]

/-- The commands taken so far are the first ones put. -/
theorem taken_prefix (b : Bridge κ ε β) : cmds b.queue.taken <+: b.sent := b.queue.taken_prefix.filterMap _

theorem taken_sent (b : Bridge κ ε β) (hc : c ∈ cmds b.queue.taken) : c ∈ b.sent := b.taken_prefix.subset hc

/-- Two commands ever put with one id are one command. -/
theorem Ok.id_inj (h : b.Ok held) {d : Cmd κ} (hc : c ∈ b.sent) (hd : d ∈ b.sent) (he : c.id = d.id) : c = d :=
  List.inj_on_of_nodup_map h.ids hc hd he

/-- The command in the owner's hands has no callback yet. -/
theorem Ok.held_not_answered (h : b.Ok (some c)) : ¬ b.Answered c := by
  rintro ⟨x, hx, he⟩
  obtain ⟨d, hd, h1, -, hne⟩ := h.schedFrom x hx
  exact hne (by rw [h.id_inj (b.taken_sent hd) (b.taken_sent (h.heldTaken c rfl)) (h1.trans he)])

/-! ### Puts and takes -/

theorem put_sent (h : b.put c = some b') : b'.sent = b.sent ++ [c] ∧ c.id ∉ b.sent.map Cmd.id := by
  unfold put at h
  split at h
  · cases h
  · rename_i hn
    cases h; exact ⟨by simp [sent], hn⟩

theorem put_frame (h : b.put c = some b') : b' = { b with queue := b.queue.put (.cmd c) } := by
  unfold put at h
  split at h <;> cases h
  rfl

theorem put_ok (h : b.Ok held) (hp : b.put c = some b') : b'.Ok held := by
  obtain ⟨hs, hn⟩ := put_sent hp
  have hids : (b'.sent.map Cmd.id).Nodup := by
    rw [hs, List.map_append, List.nodup_append]
    refine ⟨h.ids, List.nodup_singleton _, fun i hi j hj => ?_⟩
    simp only [List.map_cons, List.map_nil, List.mem_singleton] at hj
    rintro rfl; exact hn (hj ▸ hi)
  unfold put at hp
  rw [if_neg hn] at hp
  cases hp
  exact { h with ids := hids }

theorem putStop_sent (b : Bridge κ ε β) : b.putStop.sent = b.sent := by
  simp [putStop, sent]

theorem putStop_ok (h : b.Ok held) : b.putStop.Ok held :=
  { h with ids := by rw [putStop_sent]; exact h.ids }

theorem get_some {x : Item κ} (h : b.get = some (x, b')) :
    ∃ q, b.queue.get = some (x, q) ∧ b' = { b with queue := q } := by
  unfold get at h
  split at h
  · cases h
  · rename_i y q hq
    cases h; exact ⟨q, hq, rfl⟩

theorem get_none : b.get = none ↔ b.queue.waiting = [] := by
  unfold get
  rw [← Fifo.get_none]
  cases b.queue.get <;> simp

theorem get_sent {x : Item κ} (h : b.get = some (x, b')) : b'.sent = b.sent := by
  obtain ⟨q, hq, rfl⟩ := get_some h
  unfold sent; simp only; rw [Fifo.get_history hq]

theorem get_cmd_taken (hg : b.get = some (.cmd c, b')) : cmds b'.queue.taken = cmds b.queue.taken ++ [c] := by
  obtain ⟨q, hq, rfl⟩ := get_some hg
  obtain ⟨-, ht⟩ := Fifo.get_some hq
  simp only; rw [ht]; simp

theorem get_stop_taken (hg : b.get = some (.stop, b')) : cmds b'.queue.taken = cmds b.queue.taken := by
  obtain ⟨q, hq, rfl⟩ := get_some hg
  obtain ⟨-, ht⟩ := Fifo.get_some hq
  simp only; rw [ht]; simp

theorem get_waiting {x : Item κ} (hg : b.get = some (x, b')) : b.queue.waiting = x :: b'.queue.waiting := by
  obtain ⟨q, hq, rfl⟩ := get_some hg
  exact (Fifo.get_some hq).1

/-- A command is taken for the first time. -/
theorem get_cmd_new (h : b.Ok held) (hg : b.get = some (.cmd c, b')) : ∀ d ∈ cmds b.queue.taken, d.id ≠ c.id := by
  have hnd := h.ids
  rw [← get_sent hg, sent, Fifo.history, cmds_append, List.map_append, get_cmd_taken hg] at hnd
  have hnd := (List.nodup_append.1 hnd).1
  rw [List.map_append, List.nodup_append] at hnd
  intro d hd
  exact hnd.2.2 d.id (List.mem_map_of_mem hd) c.id (by simp)

/-- A command taken from the queue is in the owner's hands. -/
theorem get_cmd_ok (h : b.Ok none) (hg : b.get = some (.cmd c, b')) : b'.Ok (some c) := by
  have hs := get_sent hg
  have htk := get_cmd_taken hg
  have hnew := get_cmd_new h hg
  obtain ⟨q, -, rfl⟩ := get_some hg
  refine { h with ids := by rw [hs]; exact h.ids, heldTaken := ?_, schedFrom := ?_, answered := ?_ }
  · rintro d ⟨⟩; simp [htk]
  · intro x hx
    obtain ⟨d, hd, h1, h2, -⟩ := h.schedFrom x hx
    refine ⟨d, by simp [htk, hd], h1, h2, ?_⟩
    rintro ⟨⟩; exact hnew _ hd rfl
  · intro d hd
    simp only [htk, List.mem_append, List.mem_singleton] at hd
    rcases hd with hd | rfl
    · rcases h.answered d hd with h1 | h1
      · cases h1
      · exact .inr h1
    · exact .inl rfl

theorem get_stop_ok (h : b.Ok none) (hg : b.get = some (.stop, b')) : b'.Ok none := by
  have hs := get_sent hg
  have htk := get_stop_taken hg
  obtain ⟨q, -, rfl⟩ := get_some hg
  exact { h with
    ids := by rw [hs]; exact h.ids
    heldTaken := by simp
    schedFrom := by simp only [htk]; exact h.schedFrom
    answered := by simp only [htk]; exact h.answered }

/-! ### Deserted queues -/

theorem deserted_nil (h : b.queue.waiting = []) : b.Deserted := by
  intro c hc
  rw [h] at hc; cases hc

theorem deserted_of_sent_nil (h : b.sent = []) : b.Deserted := by
  intro c hc
  have : c ∈ b.sent := by
    unfold sent Fifo.history
    rw [cmds_append]; exact List.mem_append_right _ hc
  rw [h] at this; cases this

/-- A take, or any step that adds no command and reopens no loop, leaves a deserted queue deserted. -/
theorem Deserted.mono (h : b.Deserted) (hw : ∀ c ∈ cmds b'.queue.waiting, c ∈ cmds b.queue.waiting)
    (hc : ∀ l, b.closed l = true → b'.closed l = true) : b'.Deserted :=
  fun c hm => hc _ (h c (hw c hm))

theorem Deserted.get {x : Item κ} (h : b.Deserted) (hg : b.get = some (x, b')) : b'.Deserted := by
  have hw := get_waiting hg
  obtain ⟨q, -, rfl⟩ := get_some hg
  refine h.mono (fun c hc => ?_) (fun l hl => hl)
  rw [hw]
  exact mem_cmds.2 (List.mem_cons_of_mem _ (mem_cmds.1 hc))

theorem Deserted.put (h : b.Deserted) (hp : b.put c = some b') (hc : b.closed c.loop = true) : b'.Deserted := by
  intro d hd
  rw [put_frame hp] at hd ⊢
  simp only [Fifo.put_waiting, cmds_append, cmds_cmd, cmds_nil, List.mem_append, List.mem_singleton] at hd
  rcases hd with hd | rfl
  · exact h d hd
  · exact hc

theorem Deserted.putStop (h : b.Deserted) : b.putStop.Deserted :=
  h.mono (fun c hc => by simpa [Bridge.putStop] using hc) (fun _ hl => hl)

/-- With no command in the owner's hands and the queue deserted, every command ever put is answered,
or nobody is left to hear of it. -/
theorem Ok.answered_of_deserted (h : b.Ok none) (hd : b.Deserted) (hc : c ∈ b.sent) (hl : b.closed c.loop = false) :
    b.Answered c := by
  unfold sent Fifo.history at hc
  rw [cmds_append] at hc
  rcases List.mem_append.1 hc with hc | hc
  · rcases h.answered c hc with h1 | h1 | h1
    · cases h1
    · rw [hl] at h1; cases h1
    · exact h1
  · rw [hd c hc] at hl; cases hl

/-! ### Answers -/

theorem callSoon_some {o : Except ε β} (h : b.callSoon c o = some b') :
    b.closed c.loop = false ∧
      b' = { b with ready := b.ready ++ [⟨c.id, c.loop, o⟩], scheduled := b.scheduled ++ [⟨c.id, c.loop, o⟩] } := by
  unfold callSoon at h
  split at h
  · cases h
  · rename_i hc
    cases h; exact ⟨by simpa using hc, rfl⟩

theorem callSoon_none {o : Except ε β} : b.callSoon c o = none ↔ b.closed c.loop = true := by
  unfold callSoon; split <;> simp_all

/-- The held command is answered: its callback is the first for its future. -/
theorem callSoon_ok {o : Except ε β} (h : b.Ok (some c)) (hc : b.callSoon c o = some b') : b'.Ok none := by
  obtain ⟨-, rfl⟩ := callSoon_some hc
  have hct := h.heldTaken c rfl
  have hna := h.held_not_answered
  have hnid : ∀ x ∈ b.scheduled, x.id ≠ c.id := fun x hx he => hna ⟨x, hx, he⟩
  refine { h with heldTaken := by simp, schedFrom := ?_, schedIds := ?_, readySub := ?_, readyFut := ?_, doneFrom := ?_, answered := ?_ }
  · intro x hx
    simp only [List.mem_append, List.mem_singleton] at hx
    rcases hx with hx | rfl
    · obtain ⟨d, hd, h1, h2, -⟩ := h.schedFrom x hx; exact ⟨d, hd, h1, h2, by simp⟩
    · exact ⟨c, hct, rfl, rfl, by simp⟩
  · simp only [List.map_append, List.nodup_append]
    refine ⟨h.schedIds, by simp, fun i hi j hj => ?_⟩
    obtain ⟨x, hx, rfl⟩ := List.mem_map.1 hi
    simp only [List.map_cons, List.map_nil, List.mem_singleton] at hj
    subst hj; exact hnid x hx
  · exact h.readySub.append (List.Sublist.refl _)
  · intro x hx o' hf
    simp only [List.mem_append, List.mem_singleton] at hx
    rcases hx with hx | rfl
    · exact h.readyFut x hx o' hf
    · obtain ⟨x, hx, he, -⟩ := h.doneFrom _ _ hf; exact hnid x hx he
  · intro i o' hf
    obtain ⟨x, hx, h1, h2⟩ := h.doneFrom i o' hf
    exact ⟨x, List.mem_append_left _ hx, h1, h2⟩
  · intro d hd
    rcases h.answered d hd with h1 | h1 | ⟨x, hx, he⟩
    · cases h1; exact .inr (.inr ⟨⟨c.id, c.loop, o⟩, by simp, rfl⟩)
    · exact .inr (.inl h1)
    · exact .inr (.inr ⟨x, List.mem_append_left _ hx, he⟩)

theorem callSoon_taken {o : Except ε β} (h : b.callSoon c o = some b') :
    b'.queue = b.queue ∧ b'.closed = b.closed ∧ b'.scheduled = b.scheduled ++ [⟨c.id, c.loop, o⟩] := by
  obtain ⟨-, rfl⟩ := callSoon_some h
  exact ⟨rfl, rfl, rfl⟩

/-- The held command is given up, its loop being closed. -/
theorem drop_ok (h : b.Ok (some c)) (hc : b.closed c.loop = true) : b.Ok none := by
  refine { h with heldTaken := by simp, schedFrom := ?_, answered := ?_ }
  · intro x hx
    obtain ⟨d, hd, h1, h2, -⟩ := h.schedFrom x hx; exact ⟨d, hd, h1, h2, by simp⟩
  · intro d hd
    rcases h.answered d hd with h1 | h1
    · cases h1; exact .inr (.inl hc)
    · exact .inr h1

/-! ### The asyncio side -/

/-- The first item of a kind, and the list without it. -/
theorem find?_split {α : Type*} {p : α → Bool} {l : List α} {x : α} (h : l.find? p = some x) :
    ∃ as bs, l = as ++ x :: bs ∧ l.eraseP p = as ++ bs := by
  obtain ⟨hp, as, bs, rfl, hno⟩ := List.find?_eq_some_iff_append.1 h
  refine ⟨as, bs, rfl, ?_⟩
  rw [List.eraseP_append_right _ (fun y hy => by simpa using hno y hy), List.eraseP_cons_of_pos hp]

theorem cancel_fut (b : Bridge κ ε β) (i j : Nat) (o : Except ε β) :
    (b.cancel i).futs j = .done o ↔ b.futs j = .done o := by
  unfold cancel
  by_cases hj : j = i
  · subst hj; cases b.futs j <;> simp [Fut.cancel]
  · simp [Function.update_of_ne hj]

theorem cancel_ok (h : b.Ok held) (i : Nat) : (b.cancel i).Ok held where
  ids := h.ids
  heldTaken := h.heldTaken
  schedFrom := h.schedFrom
  schedIds := h.schedIds
  readySub := h.readySub
  readyFut x hx o hf := h.readyFut x hx o ((cancel_fut b i _ o).1 hf)
  doneFrom j o hf := h.doneFrom j o ((cancel_fut b i j o).1 hf)
  completed j o := (h.completed j o).trans (cancel_fut b i j o).symm
  completedIds := h.completedIds
  answered := h.answered
  noFault := h.noFault

theorem closeLoop_closed {l m : Nat} (b : Bridge κ ε β) (h : b.closed m = true) : (b.closeLoop l).closed m = true := by
  unfold closeLoop
  by_cases hm : m = l
  · simp [hm]
  · simp [Function.update_of_ne hm, h]

theorem closeLoop_ok (h : b.Ok held) (l : Nat) : (b.closeLoop l).Ok held := by
  refine { h with answered := fun c hc => ?_ }
  rcases h.answered c hc with h1 | h1 | h1
  · exact .inl h1
  · exact .inr (.inl (closeLoop_closed b h1))
  · exact .inr (.inr h1)

theorem runCallback_frame (b : Bridge κ ε β) (x : Callback ε β) :
    (b.runCallback x).queue = b.queue ∧ (b.runCallback x).scheduled = b.scheduled ∧
      (b.runCallback x).closed = b.closed := by
  unfold runCallback
  split <;> exact ⟨rfl, rfl, rfl⟩

/-- A callback touches futures only. -/
theorem runLoop_frame {l : Nat} (hr : b.runLoop l = some b') :
    b'.queue = b.queue ∧ b'.scheduled = b.scheduled ∧ b'.closed = b.closed := by
  unfold runLoop at hr
  split at hr
  · cases hr
  · split at hr
    · cases hr
    · cases hr; exact runCallback_frame _ _

/-- The callbacks left over when one is taken to be run belong to other futures. -/
theorem Ok.others {p : Callback ε β → Bool} {x : Callback ε β} (h : b.Ok held) (hx : b.ready.find? p = some x) :
    ∀ y ∈ b.ready.eraseP p, y.id ≠ x.id := by
  have hnd : (b.ready.map Callback.id).Nodup := h.schedIds.sublist (h.readySub.map _)
  obtain ⟨as, bs, hsplit, herase⟩ := find?_split hx
  rw [herase]
  rw [hsplit] at hnd
  simp only [List.map_append, List.map_cons, List.nodup_append, List.nodup_cons, List.mem_cons] at hnd
  intro y hy
  rcases List.mem_append.1 hy with hy | hy
  · exact hnd.2.2 y.id (List.mem_map_of_mem hy) x.id (.inl rfl)
  · rintro he; exact hnd.2.1.1 (he ▸ List.mem_map_of_mem hy)

/-- A callback finds its future pending or cancelled, never completed. -/
theorem runLoop_ok {l : Nat} (h : b.Ok held) (hr : b.runLoop l = some b') : b'.Ok held := by
  unfold runLoop at hr
  split at hr
  · cases hr
  · split at hr
    · cases hr
    · rename_i x hx
      cases hr
      have hxr : x ∈ b.ready := List.mem_of_find?_eq_some hx
      have hsub : (b.ready.eraseP (·.loop == l)).Sublist b.ready := List.eraseP_sublist
      have hne := h.others hx
      unfold runCallback
      simp only
      cases hf : b.futs x.id with
      | cancelled =>
        simp only [Fut.settle]
        exact { h with
          readySub := hsub.trans h.readySub
          readyFut := fun y hy => h.readyFut y (hsub.subset hy) }
      | done o => exact absurd hf (h.readyFut x hxr o)
      | pending =>
        simp only [Fut.settle, Fut.set]
        have hxs := h.readySub.subset hxr
        refine { h with readySub := hsub.trans h.readySub, readyFut := ?_, doneFrom := ?_, completed := ?_, completedIds := ?_ }
        · intro y hy o ho
          simp only [Function.update_of_ne (hne y hy)] at ho
          exact h.readyFut y (hsub.subset hy) o ho
        · intro i o ho
          by_cases hi : i = x.id
          · subst hi
            simp only [Function.update_self, Fut.done.injEq] at ho
            exact ⟨x, hxs, rfl, ho⟩
          · simp only [Function.update_of_ne hi] at ho; exact h.doneFrom i o ho
        · intro i o
          have hold := h.completed i o
          by_cases hi : i = x.id
          · subst hi
            rw [hf] at hold
            simp [List.mem_append, hold, eq_comm]
          · simp [List.mem_append, hold, hi]
        · simp only [List.map_append, List.nodup_append]
          refine ⟨h.completedIds, by simp, fun i hi j hj => ?_⟩
          obtain ⟨⟨i', o⟩, ho, rfl⟩ := List.mem_map.1 hi
          simp only [List.map_cons, List.map_nil, List.mem_singleton] at hj
          intro he
          have := (h.completed _ _).1 ho
          rw [show i' = x.id from he.trans hj, hf] at this; cases this

end Bridge

end Nwep.Runtime
