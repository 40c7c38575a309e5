/-
The request handler behind its trampoline: what the installed callback reports to the library for
each request.

The library reads 0 as answered, 1 as deferred and -801 as an error. The trampoline derives the
value from the returned `Reply` alone, and catches `Exception` only; what escapes a callback that
declares no error value makes cffi return 0.
-/
import Nwep.Lib.Run
import Nwep.Server.Responder

namespace Nwep.Server

open Lib

/-! ## What a handler can do -/

/-- A Python exception, as `except Exception` sees it: caught, or one like `KeyboardInterrupt` that
derives from `BaseException` only. -/
inductive Raised where
  | exception
  | baseException
deriving Repr, DecidableEq

/-- The object a handler returns: whether it is a `Reply`, and whether its `deferred` is true; each
look at it may raise. -/
structure Returned where
  isReply : Except Raised Bool
  deferred : Except Raised Bool

/-- One request: where its answer goes, the operations its handler makes on responders (`back`
requests ago, 0 for its own), how the handler ends, and what becomes of the trampoline's reports
(the line on stderr, the traceback). -/
structure Invocation (ε : Type) where
  buf : Nat
  conn : Nat
  streamId : Nat
  ops : List (Nat × Op ε)
  exit : Except Raised Returned
  complain : Except Raised Unit := .ok ()
  printExc : Except Raised Unit := .ok ()

variable {ε : Type}

/-! ## The trampoline -/

def answered : Int := 0

/-- `_DEFER`. -/
def deferred : Int := 1

def internalError : Int := -801

/-- The `try` block. -/
def Invocation.body (inv : Invocation ε) : Except Raised Int := do
  let reply ← inv.exit
  if !(← reply.isReply) then
    inv.complain
    return internalError
  else
    return if ← reply.deferred then Server.deferred else answered

/-- The `except Exception` clause around it. -/
def Invocation.trampoline (inv : Invocation ε) : Except Raised Int :=
  match inv.body with
  | .error .exception => do
    inv.printExc
    return internalError
  | result => result

/-- What the callback gives the library: cffi returns 0 for an exception that escapes. -/
def Invocation.value (inv : Invocation ε) : Int :=
  match inv.trampoline with
  | .ok value => value
  | .error _ => 0

/-! ## Runs of requests -/

/-- A value reported for a request, with the replies its own responder had given by then. -/
structure Report where
  value : Int
  own : List Reply
deriving Repr, DecidableEq

/-- `replies` and `reports` record what happened, `responders` are the ones handed out so far. -/
structure Host where
  world : World Call Ret Flags
  responders : List Responder
  replies : List (Nat × Reply)
  reports : List Report

def Host.init (ret : Nat → Ret) : Host := ⟨⟨⟨fun _ => false⟩, ret, []⟩, [], [], []⟩

/-- One operation on `r`; the handler goes on whatever it returns or raises. -/
def Host.use (h : Host) (r : Responder) (o : Op ε) : Host :=
  match o.run r h.world with
  | .ok (some reply) w => { h with world := w, replies := h.replies ++ [(r.id, reply)] }
  | .ok none w => { h with world := w }
  | .error _ w => { h with world := w }

/-- The handler's operations, each on the responder of an earlier request or its own. -/
def Host.handle (h : Host) (inv : Invocation ε) : Host :=
  inv.ops.foldl (fun h o =>
    match h.responders.reverse[o.1]? with
    | some r => h.use r o.2
    | none => h) h

/-- `Responder(resp_buf, server_ptr, conn_id, stream_id)`. -/
def Host.open (server : Nat) (h : Host) (inv : Invocation ε) : Host :=
  let n := h.responders.length
  { h with
    responders := h.responders ++ [⟨n, inv.buf, server, inv.conn, inv.streamId⟩]
    world := { h.world with objs := { used := Function.update h.world.objs.used n false } } }

/-- The replies given by the `n`-th request's responder. -/
def Host.repliesOf (h : Host) (n : Nat) : List Reply :=
  (h.replies.filter fun p => p.1 == n).map Prod.snd

/-- One request, from the library's call of the callback to the value it gets. -/
def step (server : Nat) (h : Host) (inv : Invocation ε) : Option Host :=
  let h' := (h.open server inv).handle inv
  some { h' with reports := h'.reports ++ [⟨inv.value, h'.repliesOf h.responders.length⟩] }

/-! ## Truth of the reports -/

/-- 0 only for a request whose own responder answered, 1 only for one it deferred, and otherwise the
error code. -/
structure Truthful (rep : Report) : Prop where
  ofAnswered : rep.value = answered → { deferred := false } ∈ rep.own
  ofDeferred : rep.value = deferred → { deferred := true } ∈ rep.own
  code : rep.value = answered ∨ rep.value = deferred ∨ rep.value = internalError

/-- The exception that leaves the `try` block, if any. -/
def Invocation.raises (inv : Invocation ε) : Option Raised :=
  match inv.exit with
  | .error e => some e
  | .ok reply => match reply.isReply with
    | .error e => some e
    | .ok false => match inv.complain with
      | .error e => some e
      | .ok _ => none
    | .ok true => match reply.deferred with
      | .error e => some e
      | .ok _ => none

/-- An exception leaves the callback: one that is no `Exception`, or one whose traceback cannot be
printed. -/
def Invocation.Escapes (inv : Invocation ε) : Prop :=
  inv.raises = some .baseException ∨ (inv.raises = some .exception ∧ ∃ e, inv.printExc = .error e)

/-- The handler returns a `Reply` with this flag. -/
def Invocation.Returns (inv : Invocation ε) (flag : Bool) : Prop :=
  ∃ reply, inv.exit = .ok reply ∧ reply.isReply = .ok true ∧ reply.deferred = .ok flag

/-- A handler that lets an exception out of the callback only after its own responder answered, and
returns a `Reply` only when its own responder gave one with the same flag. -/
def Honest (server : Nat) (h : Host) (inv : Invocation ε) : Prop :=
  let own := ((h.open server inv).handle inv).repliesOf h.responders.length
  (inv.Escapes → { deferred := false } ∈ own) ∧ ∀ flag, inv.Returns flag → { deferred := flag } ∈ own

/-! ## What the trampoline makes of each ending -/

variable {inv : Invocation ε}

theorem Invocation.Returns.raises {flag : Bool} (h : inv.Returns flag) : inv.raises = none := by
  obtain ⟨reply, hx, hr, hd⟩ := h
  unfold Invocation.raises
  simp only [hx, hr, hd]

theorem Invocation.Returns.body {flag : Bool} (h : inv.Returns flag) :
    inv.body = .ok (if flag then Server.deferred else answered) := by
  obtain ⟨reply, hx, hr, hd⟩ := h
  unfold Invocation.body
  rw [hx]
  show (reply.isReply >>= _) = _
  rw [hr]
  show (reply.deferred >>= _) = _
  rw [hd]; rfl

/-- The `try` block raises, returns for a `Reply`, or returns the error code. -/
theorem Invocation.body_cases (inv : Invocation ε) :
    (∃ e, inv.raises = some e ∧ inv.body = .error e) ∨ (∃ flag, inv.Returns flag) ∨
    (inv.raises = none ∧ (∀ flag, ¬ inv.Returns flag) ∧ inv.body = .ok internalError) := by
  obtain ⟨_, _, _, _, exit, complain, _⟩ := inv
  cases exit with
  | error e => exact .inl ⟨e, rfl, rfl⟩
  | ok reply =>
    obtain ⟨isReply, flag⟩ := reply
    cases isReply with
    | error e => exact .inl ⟨e, rfl, rfl⟩
    | ok b =>
      cases b with
      | false =>
        cases complain with
        | error e => exact .inl ⟨e, rfl, rfl⟩
        | ok u => exact .inr (.inr ⟨rfl, by rintro _ ⟨reply, ⟨⟩, ⟨⟩, -⟩, rfl⟩)
      | true =>
        cases flag with
        | error e => exact .inl ⟨e, rfl, rfl⟩
        | ok flag => exact .inr (.inl ⟨flag, _, rfl, rfl, rfl⟩)

theorem Invocation.not_escapes (h : inv.raises = none) : ¬ inv.Escapes := by
  unfold Invocation.Escapes
  rw [h]
  rintro (h | ⟨h, -⟩) <;> cases h

/-- The value of a callback: 0 for an exception that escapes, the flag's code for a returned
`Reply`, and the error code otherwise. -/
theorem Invocation.value_cases (inv : Invocation ε) :
    (inv.Escapes ∧ inv.value = answered) ∨
    (∃ flag, inv.Returns flag ∧ inv.value = if flag then Server.deferred else answered) ∨
    (¬ inv.Escapes ∧ (∀ flag, ¬ inv.Returns flag) ∧ inv.value = internalError) := by
  rcases inv.body_cases with ⟨e, he, hb⟩ | ⟨flag, hf⟩ | ⟨hn, hf, hb⟩
  · have hf : ∀ flag, ¬ inv.Returns flag := fun flag hf => by rw [hf.raises] at he; cases he
    unfold Invocation.Escapes Invocation.value Invocation.trampoline
    rw [he, hb]
    cases e with
    | baseException => exact .inl ⟨.inl rfl, rfl⟩
    | exception =>
      cases hp : inv.printExc with
      | error e => exact .inl ⟨.inr ⟨rfl, e, rfl⟩, rfl⟩
      | ok u =>
        refine .inr (.inr ⟨?_, hf, rfl⟩)
        rintro (h | ⟨-, _, h⟩) <;> cases h
  · refine .inr (.inl ⟨flag, hf, ?_⟩)
    unfold Invocation.value Invocation.trampoline
    rw [hf.body]
  · refine .inr (.inr ⟨Invocation.not_escapes hn, hf, ?_⟩)
    unfold Invocation.value Invocation.trampoline
    rw [hb]

theorem Invocation.Returns.unique {f g : Bool} (hf : inv.Returns f) (hg : inv.Returns g) : f = g := by
  obtain ⟨r, hx, -, hd⟩ := hf
  obtain ⟨r', hx', -, hd'⟩ := hg
  rw [hx] at hx'; cases hx'
  rw [hd] at hd'; cases hd'; rfl

/-- One report is truthful exactly when the ending is covered by the replies of the own responder. -/
theorem truthful_iff (own : List Reply) :
    Truthful ⟨inv.value, own⟩ ↔
      (inv.Escapes → { deferred := false } ∈ own) ∧ ∀ flag, inv.Returns flag → { deferred := flag } ∈ own := by
  rcases inv.value_cases with ⟨he, hv⟩ | ⟨flag, hf, hv⟩ | ⟨he, hf, hv⟩
  · have hnone : ∀ flag, ¬ inv.Returns flag := fun flag hf => Invocation.not_escapes hf.raises he
    constructor
    · exact fun ht => ⟨fun _ => ht.ofAnswered hv, fun flag hf => absurd hf (hnone flag)⟩
    · exact fun h => ⟨fun _ => h.1 he, fun hd => absurd (hv.symm.trans hd) (by decide), .inl hv⟩
  · have hesc : ¬ inv.Escapes := Invocation.not_escapes hf.raises
    cases flag with
    | false =>
      constructor
      · exact fun ht => ⟨fun h => absurd h hesc, fun g hg => hf.unique hg ▸ ht.ofAnswered hv⟩
      · exact fun h => ⟨fun _ => h.2 _ hf, fun hd => absurd (hv.symm.trans hd) (by decide), .inl hv⟩
    | true =>
      constructor
      · exact fun ht => ⟨fun h => absurd h hesc, fun g hg => hf.unique hg ▸ ht.ofDeferred hv⟩
      · exact fun h => ⟨fun ha => absurd (hv.symm.trans ha) (by decide), fun _ => h.2 _ hf, .inr (.inl hv)⟩
  · constructor
    · exact fun _ => ⟨fun h => absurd h he, fun flag hr => absurd hr (hf flag)⟩
    · exact fun _ => ⟨fun ha => absurd (hv.symm.trans ha) (by decide), fun hd => absurd (hv.symm.trans hd) (by decide),
        .inr (.inr hv)⟩

theorem handle_reports (h : Host) (inv : Invocation ε) : (h.handle inv).reports = h.reports := by
  unfold Host.handle
  generalize inv.ops = ops
  induction ops generalizing h with
  | nil => rfl
  | cons o ops ih =>
    rw [List.foldl_cons, ih]
    split
    · unfold Host.use
      split <;> rfl
    · rfl

/-- Every report of a run of requests is truthful if and only if every handler was honest. -/
theorem reports_truthful {server : Nat} {ret : Nat → Ret} {invs : List (Invocation ε)} {h : Host}
    (hrun : runs (step server) (.init ret) invs = some h) :
    (∀ rep ∈ h.reports, Truthful rep) ↔ Meets (step server) (Honest server) (.init ret) invs := by
  have hstep : ∀ (s : Host) (inv : Invocation ε) s', True → step server s inv = some s' →
      ((∀ rep ∈ s'.reports, Truthful rep) ↔ (∀ rep ∈ s.reports, Truthful rep) ∧ Honest server s inv) := by
    intro s inv s' _ hs
    cases hs
    simp only [handle_reports, List.mem_append, List.mem_singleton, or_imp, forall_and, forall_eq]
    exact and_congr Iff.rfl (truthful_iff _)
  rw [runs_iff (I := fun _ => True) (fun _ _ _ _ _ => trivial) hstep invs trivial hrun]
  exact ⟨fun hm => hm.2, fun hm => ⟨fun rep hr => (List.not_mem_nil hr).elim, hm⟩⟩

/-- A handler that answers "hi" and returns its `Reply`. -/
def hello : Invocation Unit :=
  { buf := 100, conn := 2, streamId := 3, ops := [(0, .terminal (.ok (.ok [104, 105])))],
    exit := .ok ⟨.ok true, .ok false⟩ }

/-- Interrupted before any terminal. -/
def interrupted : Invocation Unit := { hello with ops := [], exit := .error .baseException }

/-- Returns a `Reply` kept from an earlier request. -/
def stale : Invocation Unit := { hello with ops := [] }

theorem reports_truthful_hello : ∃ h, runs (step 1) (.init fun _ => ⟨0, 0, []⟩) [hello] = some h ∧
    ∀ rep ∈ h.reports, Truthful rep := by
  have hrun : runs (step 1) (.init fun _ => ⟨0, 0, []⟩) [hello] = some _ := rfl
  refine ⟨_, hrun, (reports_truthful hrun).2 ⟨⟨fun he => ?_, ?_⟩, trivial⟩⟩
  · exact absurd he (Invocation.not_escapes rfl)
  · rintro flag ⟨_, ⟨⟩, -, ⟨⟩⟩
    decide

/-- In both cases the library reads 0 for a request nobody answered. -/
theorem answer_never_given :
    (∃ h, runs (step 1) (.init fun _ => ⟨0, 0, []⟩) [interrupted] = some h ∧ h.reports = [⟨0, []⟩]) ∧
    (∃ h, runs (step 1) (.init fun _ => ⟨0, 0, []⟩) [hello, stale] = some h ∧
      h.reports = [⟨0, [{ deferred := false }]⟩, ⟨0, []⟩]) ∧
    ¬ Truthful ⟨0, []⟩ :=
  ⟨⟨_, rfl, rfl⟩, ⟨_, rfl, rfl⟩, fun h => (List.not_mem_nil (h.ofAnswered rfl)).elim⟩

end Nwep.Server
