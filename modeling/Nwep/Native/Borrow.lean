/-
Borrowers and their lenders: a Dht on the socket of its Server, a Stream on the handle of its Client, a
LogServer over its Log, any number of each, with their methods, closes and finalizers in any order.

A borrower keeps its lender object alive, but the lender's `close` frees the native handle under it.
-/
import Nwep.Native.Effect

namespace Nwep.Native

open Lib

variable {ε : Type}

/-! ## Pairs -/

inductive Pair where
  | serverDht | clientStream | logLogServer
deriving Repr, DecidableEq

def Pair.lender : Pair → Cls
  | serverDht => .server
  | clientStream => .client
  | logLogServer => .log

/-- The class of the borrowers that own a handle; a Stream is an id on its client's. -/
def Pair.owned : Pair → Option Cls
  | serverDht => some .dht
  | clientStream => none
  | logLogServer => some .logServer

/-- The functions that create a borrower or act on it with the lender's handle. -/
def Fn.through : Fn → Option Pair
  | dhtAttach => some .serverDht
  | clientOpenStream | clientStreamResponse | clientStreamRecv | clientStreamVerify | clientStreamClose =>
    some .clientStream
  | logServerCreate => some .logLogServer
  | _ => none

/-- The method creates a borrower (`open_stream`). -/
def Body.opens (k : Cls) (b : Body ε) : Bool := (b.fns k).any fun fn => fn.through.isSome

/-- A call that creates a borrower. -/
inductive Opening (ε : Type) where
  | attach (bootstraps : Arg ε (List (Arg ε Dht.Bootstrap))) (initialSeq : Arg ε Int)
  | openStream (method : Arg ε Int) (path : Arg ε Bytes) (headers : Arg ε (Option (List (Bytes × Bytes))))
  | logServer (keypair : Arg ε Nat)

namespace Opening

def pair : Opening ε → Pair
  | attach .. => .serverDht
  | openStream .. => .clientStream
  | logServer _ => .logLogServer

def method : Opening ε → Method ε
  | attach bootstraps initialSeq => Dht.attach bootstraps initialSeq
  | openStream method path headers => Client.openStream method path headers
  | logServer keypair => LogServer.create keypair

end Opening

/-! ## Lenders and borrowers -/

structure Borrower where
  pair : Pair
  lender : Nat
  /-- The id of a `Stream`. -/
  id : Int
deriving Repr, DecidableEq

/-- All lenders and borrowers, in the order of their creation; the native handle of each is its
index. -/
structure Site where
  heap : Heap
  lenders : List Pair
  borrowers : List Borrower

def lenderRef (i : Nat) : Wrapper := ⟨2 * i, i⟩

/-- The `j`-th borrower, with the handle it calls the library with. -/
def borrowerRef (j handle : Nat) : Wrapper := ⟨2 * j + 1, handle⟩

/-- A method of a `Stream`. -/
inductive StreamOp (ε : Type) where
  | response
  | recv (size : Arg ε Int)
  | verify (pubkey : Arg ε Bytes)
  | close

/-- The method of the common shape, but for `close`. -/
def StreamOp.method (id : Int) : StreamOp ε → Option (Method ε)
  | response => some (Stream.response id)
  | recv size => some (Stream.recv id size)
  | verify pubkey => some (Stream.verify id pubkey)
  | close => none

def StreamOp.run (id : Int) (w client : Wrapper) (o : StreamOp ε) : Prog ε Value :=
  match o.method id with
  | some m => m.run w
  | none => Stream.close id w client

namespace Site

/-- A method was run, whatever it returned or raised. -/
def ran (s : Site) (x : Prog ε Value) : Site := { s with heap := after x s.heap }

/-- The borrower exists when its constructor returns; `open_stream` returns the id. -/
def opened (s : Site) (i : Nat) (o : Opening ε) : Site :=
  match o.method.run (lenderRef i) s.heap with
  | .ok (.int id) v => ⟨v, s.lenders, s.borrowers ++ [⟨o.pair, i, id⟩]⟩
  | .ok _ v => ⟨v, s.lenders, s.borrowers ++ [⟨o.pair, i, 0⟩]⟩
  | .error _ v => { s with heap := v }

/-- `__del__` of a borrower; a `Stream` has none. -/
def dropped (ε : Type) (s : Site) (j : Nat) (p : Pair) : Site :=
  match p.owned with
  | some k => s.ran (closeWith (borrowerRef j j) k.kind : Prog ε Value)
  | none => s

end Site

inductive Act (ε : Type) where
  | construct (p : Pair)
  | lender (p : Pair) (i : Nat) (o : Op ε p.lender)
  | finalizeLender (p : Pair) (i : Nat)
  | borrow (i : Nat) (o : Opening ε)
  | borrower (k : Cls) (j : Nat) (o : Op ε k)
  | stream (j : Nat) (o : StreamOp ε)
  | finalizeBorrower (j : Nat)

/-- One act on one of the objects; `open_stream` is a `borrow`. -/
def Site.step (s : Site) : Act ε → Option Site
  | .construct p => some { s with lenders := s.lenders ++ [p] }
  | .lender p i o =>
    if s.lenders[i]? = some p ∧ o.1.opens p.lender = false then some (s.ran (o.1.run p.lender (lenderRef i))) else none
  | .finalizeLender p i =>
    if s.lenders[i]? = some p then some (s.ran (closeWith (lenderRef i) p.lender.kind : Prog ε Value)) else none
  | .borrow i o => if s.lenders[i]? = some o.pair then some (s.opened i o) else none
  | .borrower k j o =>
    match s.borrowers[j]? with
    | some b => if b.pair.owned = some k then some (s.ran (o.1.run k (borrowerRef j j))) else none
    | none => none
  | .stream j o =>
    match s.borrowers[j]? with
    | some b =>
      if b.pair = .clientStream then some (s.ran (o.run b.id (borrowerRef j b.lender) (lenderRef b.lender))) else none
    | none => none
  | .finalizeBorrower j =>
    match s.borrowers[j]? with
    | some b => some (s.dropped ε j b.pair)
    | none => none

/-- Nothing created, and what the library will return. -/
def Site.init (ret : Nat → Ret) : Site := ⟨⟨fun _ => {}, ret, []⟩, [], []⟩

/-! ## Calls on loan -/

/-- The lender that a call borrows from: it creates a borrower, or is made on one. -/
def Site.loan (s : Site) (c : Call) : Option (Pair × Nat) :=
  match c.fn.through with
  | some p => some (p, c.handle)
  | none =>
    match s.borrowers[c.handle]? with
    | some b => if b.pair.owned.map Cls.kind = some c.fn.kind then some (b.pair, b.lender) else none
    | none => none

def OnLoan (s : Site) (q : Pair × Nat) (c : Call × Ret) : Prop := s.loan c.1 = some q

instance (s : Site) (q : Pair × Nat) : DecidablePred (OnLoan s q) := fun _ => inferInstanceAs (Decidable (_ = _))

/-- The call frees the handle of the lender. -/
def FreesLender (q : Pair × Nat) : Call × Ret → Prop := Frees q.1.lender.kind q.2

instance (q : Pair × Nat) : DecidablePred (FreesLender q) := inferInstanceAs (DecidablePred (Frees _ _))

/-- The lender's handle was freed. -/
def Site.Gone (s : Site) (q : Pair × Nat) : Prop := Freed (FreesLender q) s.heap.log

instance (s : Site) (q : Pair × Nat) : Decidable (s.Gone q) := inferInstanceAs (Decidable (Freed _ _))

/-- No borrower is created, and no call made on one, after its lender's handle was freed. -/
def Site.Kept (s : Site) : Prop := ∀ q, NoStale (FreesLender q) (OnLoan s q) s.heap.log

/-! ## Functions and kinds -/

section

variable {p q : Pair} {k : Cls} {fn : Fn} {b : Body ε}

theorem Pair.lender_inj (h : p.lender.kind = q.lender.kind) : p = q := by
  cases p <;> cases q <;> first | rfl | cases h

theorem Pair.owned_ne_lender (h : p.owned = some k) : k.kind ≠ q.lender.kind := by
  cases p <;> cases h <;> cases q <;> rintro ⟨⟩

theorem Fn.through_plain (h : fn.through = some p) : fn.plain p.lender.kind = true := by
  unfold Fn.through at h
  split at h <;> cases h <;> rfl

theorem Fn.not_through (h : fn.kind = k.kind) (hp : p.owned = some k) : fn.through = none := by
  cases ht : fn.through with
  | none => rfl
  | some q =>
    rw [Fn.plain_kind (Fn.through_plain ht)] at h
    exact absurd h.symm (Pair.owned_ne_lender hp)

/-- A public operation calls functions of its own kind, but for the anchor's look at the server. -/
theorem Public.fns_kind (h : Public k b) (hk : k ≠ .anchorNode) : ∀ fn ∈ b.fns k, fn.kind = k.kind := by
  intro fn hf
  cases b with
  | method m => rw [List.mem_singleton.1 hf]; exact Fn.plain_kind h.plain
  | repr m => rw [List.mem_singleton.1 hf]; exact Fn.plain_kind h.repr_plain
  | headers => cases hf
  | next i decode => cases h; rw [List.mem_singleton.1 hf]; rfl
  | setCache cache => cases h; rw [List.mem_singleton.1 hf]; rfl
  | onRequestDone hook => cases h; rw [List.mem_singleton.1 hf]; rfl
  | onAppend hook => cases h; rw [List.mem_singleton.1 hf]; rfl
  | poll => cases h; rw [List.mem_singleton.1 hf]; rfl
  | save => cases h; rw [List.mem_singleton.1 hf]; rfl
  | anchorDispatch => cases h; exact absurd rfl hk
  | close => rw [List.mem_singleton.1 hf]; exact k.kind.free_kind

theorem Pair.lender_ne_anchor (p : Pair) : p.lender ≠ .anchorNode := by cases p <;> rintro ⟨⟩

theorem Pair.owned_ne_anchor (h : p.owned = some k) : k ≠ .anchorNode := by
  cases p <;> cases h <;> rintro ⟨⟩

/-- A call with the lender's handle. -/
theorem loan_through {s : Site} {c : Call} (h : c.fn.through = some p) : s.loan c = some (p, c.handle) := by
  unfold Site.loan; rw [h]

/-- A call with a borrower's own handle. -/
theorem loan_owned {s : Site} {c : Call} {b : Borrower} (h : c.fn.through = none) (hj : s.borrowers[c.handle]? = some b)
    (hk : b.pair.owned = some k) (hc : c.fn.kind = k.kind) : s.loan c = some (b.pair, b.lender) := by
  unfold Site.loan
  rw [h, hj]
  exact if_pos (by rw [hk, hc]; rfl)

/-- Any other call. -/
theorem loan_none {s : Site} {c : Call} (h : c.fn.through = none)
    (hk : ∀ p : Pair, p.owned.map Cls.kind ≠ some c.fn.kind) :
    s.loan c = none := by
  unfold Site.loan
  rw [h]
  cases s.borrowers[c.handle]? with
  | none => rfl
  | some b => exact if_neg (hk b.pair)

end

/-! ## One act -/

section

variable {s s' : Site} {q : Pair × Nat} {acts : Prop} {cs : List (Call × Ret)}

/-- The calls of one act: on loan from `q` if at all, some exactly if `acts`, and then none of them
frees a lender; a lender one of them frees is closed. -/
structure Loaned (s' : Site) (q : Pair × Nat) (acts : Prop) (cs : List (Call × Ret)) : Prop where
  one : ∀ c ∈ cs, ∀ r, OnLoan s' r c → r = q
  uses : (∃ c ∈ cs, OnLoan s' q c) ↔ acts
  order : acts → ∀ r, ¬ Freed (FreesLender r) cs
  closes : ∀ r, Freed (FreesLender r) cs → s'.lenders[r.2]? = some r.1 ∧ isClosed (lenderRef r.2) s'.heap = true
  known : ∀ c ∈ cs, c.1.fn.kind = .dht ∨ c.1.fn.kind = .logServer → c.1.handle < s'.borrowers.length

/-- From `s` to `s'` by one act. -/
structure Moved (s s' : Site) (q : Pair × Nat) (acts : Prop) : Prop where
  calls : ∃ cs, s'.heap.log = s.heap.log ++ cs ∧ Loaned s' q acts cs
  stays : ∀ u, isClosed u s.heap = true → isClosed u s'.heap = true
  lenders : s.lenders <+: s'.lenders
  borrowers : s.borrowers <+: s'.borrowers

/-- A freed lender is closed, and a call with a borrower's own handle was made on a borrower. -/
structure Sound (s : Site) : Prop where
  gone : ∀ q, s.Gone q → s.lenders[q.2]? = some q.1 ∧ isClosed (lenderRef q.2) s.heap = true
  known : ∀ c ∈ s.heap.log, c.1.fn.kind = .dht ∨ c.1.fn.kind = .logServer → c.1.handle < s.borrowers.length

theorem getElem_of_isPrefix {α : Type} {l l' : List α} (h : l <+: l') {i : Nat} (hi : i < l.length) :
    l'[i]? = l[i]? := by
  obtain ⟨r, rfl⟩ := h
  exact List.getElem?_append_left hi

theorem Moved.sound (hm : Moved s s' q acts) (hi : Sound s) : Sound s' := by
  obtain ⟨⟨cs, hl, hc⟩, hst, hlen, hbor⟩ := hm
  constructor
  · intro r hg
    unfold Site.Gone at hg
    rw [hl, freed_append] at hg
    rcases hg with hg | hg
    · obtain ⟨h1, h2⟩ := hi.gone r hg
      obtain ⟨hlt, -⟩ := List.getElem?_eq_some_iff.1 h1
      exact ⟨(getElem_of_isPrefix hlen hlt).trans h1, hst _ h2⟩
    · exact hc.closes r hg
  · intro c hm hk
    rw [hl] at hm
    rcases List.mem_append.1 hm with h | h
    · exact Nat.lt_of_lt_of_le (hi.known c h hk) hbor.length_le
    · exact hc.known c h hk

/-- A new borrower puts no earlier call on loan. -/
theorem Moved.loan_eq (hm : Moved s s' q acts) (hi : Sound s) {c : Call × Ret} (hc : c ∈ s.heap.log) :
    s'.loan c.1 = s.loan c.1 := by
  cases ht : c.1.fn.through with
  | some p => rw [loan_through ht, loan_through ht]
  | none =>
    by_cases hk : c.1.fn.kind = .dht ∨ c.1.fn.kind = .logServer
    · unfold Site.loan
      rw [getElem_of_isPrefix hm.borrowers (hi.known c hc hk)]
    · have hno : ∀ p : Pair, p.owned.map Cls.kind ≠ some c.1.fn.kind := by
        rintro (_ | _ | _) h
        · exact hk (.inl (Option.some.inj h).symm)
        · cases h
        · exact hk (.inr (Option.some.inj h).symm)
      rw [loan_none ht hno, loan_none ht hno]

/-- One act keeps every loan exactly if it makes no borrower call for a lender that is gone. -/
theorem Moved.kept_iff (hm : Moved s s' q acts) (hi : Sound s) : s'.Kept ↔ s.Kept ∧ (s.Gone q → ¬ acts) := by
  obtain ⟨cs, hl, hc⟩ := hm.calls
  have hold : ∀ r, NoStale (FreesLender r) (OnLoan s' r) s.heap.log ↔
      NoStale (FreesLender r) (OnLoan s r) s.heap.log := by
    intro r
    refine List.Pairwise.iff_of_mem fun _ hb => ?_
    unfold OnLoan
    rw [hm.loan_eq hi hb]
  have hnew : ∀ r, NoStale (FreesLender r) (OnLoan s' r) cs := by
    intro r
    by_cases ha : acts
    · exact noStale_of_not_freed (hc.order ha r)
    · refine noStale_of_not_used fun c hcs hu => ha ?_
      rw [← hc.uses, ← hc.one c hcs r hu]
      exact ⟨c, hcs, hu⟩
  unfold Site.Kept
  simp only [hl, noStale_append, hold]
  constructor
  · intro h
    refine ⟨fun r => (h r).1, fun hg ha => ?_⟩
    obtain ⟨c, hcs, hu⟩ := hc.uses.2 ha
    exact (h q).2.2 hg c hcs hu
  · rintro ⟨h, hq⟩ r
    refine ⟨h r, hnew r, fun hg c hcs hu => ?_⟩
    have hr := hc.one c hcs r hu
    subst hr
    exact hq hg (hc.uses.1 ⟨c, hcs, hu⟩)

/-! ## The calls of a method -/

theorem loaned_nil : Loaned s' q False [] :=
  ⟨by rintro c ⟨⟩, ⟨by rintro ⟨c, ⟨⟩, -⟩, False.elim⟩, False.elim, fun r h => (not_freed_nil h).elim, by rintro c ⟨⟩⟩

/-- A lender's own calls are nobody's loan. -/
theorem lender_loaned {p : Pair} {i : Nat} {b : Body ε} (hp : Public p.lender b) (ho : b.opens p.lender = false)
    (hl : s'.lenders[i]? = some p) (hb : Batch p.lender.kind (lenderRef i) (b.fns p.lender) acts s'.heap cs) :
    Loaned s' (p, i) False cs := by
  have hkind : ∀ c ∈ cs, c.1.fn.kind = p.lender.kind := fun c hc => hp.fns_kind p.lender_ne_anchor _ (hb.only c hc).1
  have hthrough : ∀ c ∈ cs, c.1.fn.through = none := by
    intro c hc
    unfold Body.opens at ho
    rw [List.any_eq_false] at ho
    have := ho _ (hb.only c hc).1
    rwa [Option.not_isSome_iff_eq_none] at this
  have hloan : ∀ c ∈ cs, ∀ r, ¬ OnLoan s' r c := by
    intro c hc r hr
    unfold OnLoan at hr
    rw [loan_none (hthrough c hc)] at hr
    · cases hr
    · intro p' h
      obtain ⟨k, hk, he⟩ := Option.map_eq_some_iff.1 h
      exact Pair.owned_ne_lender hk (he.trans (hkind c hc))
  refine ⟨fun c hc r hr => (hloan c hc r hr).elim, ⟨fun ⟨c, hc, hr⟩ => hloan c hc _ hr, False.elim⟩, False.elim, ?_, ?_⟩
  · rintro ⟨p', i'⟩ ⟨c, hc, hf⟩
    have hu := Frees.uses hf
    have hpp : p' = p := Pair.lender_inj (hu.1.symm.trans (hkind c hc))
    subst hpp
    have hii : i' = i := hu.2.symm.trans ((hb.only c hc).2 hu.1)
    subst hii
    exact ⟨hl, hb.closes ⟨c, hc, hf⟩⟩
  · intro c hc hk
    rw [hkind c hc] at hk
    cases p <;> rcases hk with hk | hk <;> cases hk

/-- A borrower's calls with its own handle are on loan from its lender, all of them. -/
theorem owned_loaned {j : Nat} {b : Borrower} {k : Cls} {o : Body ε} (hp : Public k o) (hj : s'.borrowers[j]? = some b)
    (hk : b.pair.owned = some k) (hb : Batch k.kind (borrowerRef j j) (o.fns k) acts s'.heap cs) :
    Loaned s' (b.pair, b.lender) acts cs := by
  have hkind : ∀ c ∈ cs, c.1.fn.kind = k.kind := fun c hc => hp.fns_kind (Pair.owned_ne_anchor hk) _ (hb.only c hc).1
  have hhandle : ∀ c ∈ cs, c.1.handle = j := fun c hc => (hb.only c hc).2 (hkind c hc)
  have hloan : ∀ c ∈ cs, s'.loan c.1 = some (b.pair, b.lender) := by
    intro c hc
    refine loan_owned (Fn.not_through (hkind c hc) hk) ?_ hk (hkind c hc)
    rw [hhandle c hc]; exact hj
  have hfree : ∀ r, ¬ Freed (FreesLender r) cs := fun r ⟨c, hc, hf⟩ =>
    Pair.owned_ne_lender hk ((hkind c hc).symm.trans (Frees.uses hf).1)
  refine ⟨fun c hc r hr => ?_, ?_, fun _ => hfree, fun r h => (hfree r h).elim, fun c hc _ => ?_⟩
  · exact Option.some.inj (hr.symm.trans (hloan c hc))
  · rw [← hb.uses]
    exact ⟨fun ⟨c, hc, _⟩ => ⟨c, hc, hkind c hc, hhandle c hc⟩, fun ⟨c, hc, _⟩ => ⟨c, hc, hloan c hc⟩⟩
  · rw [hhandle c hc]
    exact (List.getElem?_eq_some_iff.1 hj).1

/-- So are the calls with the lender's handle that create a borrower or act on one. -/
theorem through_loaned {p : Pair} {x i : Nat} {fn : Fn} (hf : fn.through = some p)
    (hb : Batch p.lender.kind ⟨x, i⟩ [fn] acts s'.heap cs) : Loaned s' (p, i) acts cs := by
  have hplain := Fn.through_plain hf
  have hkind := Fn.plain_kind hplain
  have hfn : ∀ c ∈ cs, c.1.fn = fn := fun c hc => List.mem_singleton.1 (hb.only c hc).1
  have hhandle : ∀ c ∈ cs, c.1.handle = i := fun c hc => (hb.only c hc).2 (by rw [hfn c hc]; exact hkind)
  have hloan : ∀ c ∈ cs, s'.loan c.1 = some (p, i) := by
    intro c hc
    rw [loan_through (p := p) (by rw [hfn c hc]; exact hf), hhandle c hc]
  have hfree : ∀ r, ¬ Freed (FreesLender r) cs := by
    rintro ⟨p', i'⟩ ⟨c, hc, h⟩
    have hpp : p' = p := Pair.lender_inj ((Frees.uses h).1.symm.trans (by rw [hfn c hc]; exact hkind))
    subst hpp
    obtain ⟨⟨f, h', args⟩, ret⟩ := c
    cases hfn _ hc
    cases (Frees.uses h).2
    exact Fn.plain_not_frees hplain _ _ _ h
  refine ⟨fun c hc r hr => ?_, ?_, fun _ => hfree, fun r h => (hfree r h).elim, fun c hc hk => ?_⟩
  · exact Option.some.inj (hr.symm.trans (hloan c hc))
  · rw [← hb.uses]
    exact ⟨fun ⟨c, hc, _⟩ => ⟨c, hc, by rw [hfn c hc]; exact hkind, hhandle c hc⟩,
      fun ⟨c, hc, _⟩ => ⟨c, hc, hloan c hc⟩⟩
  · rw [hfn c hc, hkind] at hk
    cases p <;> rcases hk with hk | hk <;> cases hk

theorem Effect.moved {k : Kind} {w : Wrapper} {fs : List Fn} {acts' : Prop} {v : Heap}
    (he : Effect k w fs acts s.heap v)
    (hv : s'.heap = v) (hl : s.lenders <+: s'.lenders) (hb : s.borrowers <+: s'.borrowers)
    (h : ∀ cs, Batch k w fs acts s'.heap cs → Loaned s' q acts' cs) : Moved s s' q acts' := by
  subst hv
  obtain ⟨⟨cs, hlog, hcs⟩, hst⟩ := he
  exact ⟨⟨cs, hlog, h cs hcs⟩, hst, hl, hb⟩

/-- A stream's own `close` calls the library only while the client is open, too. -/
theorem streamClose_effect (id : Int) (w client : Wrapper) (v : Heap) :
    Effect .client w [.clientStreamClose] (isClosed w v = false ∧ isClosed client v = false) v
      (after (Stream.close id w client : Prog ε Value) v) := by
  unfold Stream.close
  rw [after_bind_ok (get_ok v)]
  by_cases h : isClosed w v = false ∧ isClosed client v = false
  · rw [if_pos h, after_bind_ok (callOn_ok _ _ _), after_bind_ok (setObj_ok _ _), after_pure]
    exact Effect.call rfl (List.mem_singleton_self _) rfl (withObj_stays (fun _ _ => rfl) rfl) h
  · rw [if_neg h, after_bind_ok (setObj_ok _ _), after_pure]
    exact Effect.quiet rfl (withObj_stays (fun _ _ => rfl) rfl) h

theorem opened_frame (s : Site) (i : Nat) (o : Opening ε) :
    (s.opened i o).heap = after (o.method.run (lenderRef i)) s.heap ∧ (s.opened i o).lenders = s.lenders ∧
    s.borrowers <+: (s.opened i o).borrowers := by
  unfold Site.opened
  split
  · rename_i h
    rw [after_ok h]; exact ⟨rfl, rfl, List.prefix_append _ _⟩
  · rename_i h
    rw [after_ok h]; exact ⟨rfl, rfl, List.prefix_append _ _⟩
  · rename_i h
    rw [after_error h]; exact ⟨rfl, rfl, List.prefix_rfl⟩

theorem Opening.through (o : Opening ε) : o.method.fn.through = some o.pair := by cases o <;> rfl

theorem StreamOp.through {id : Int} {o : StreamOp ε} {m : Method ε} (h : o.method id = some m) :
    m.fn.through = some .clientStream ∧ m.guard.isSome = true := by
  cases o <;> cases h <;> exact ⟨rfl, rfl⟩

end

/-! ## Whole runs -/

section

variable {s s' : Site}

/-- What may come after the lender's handle was freed: a constructor whose parameters do not convert, a
method of a closed borrower that checks for it, one whose parameters do not convert, `Stream.close`, and
the finalizer of a closed borrower or of a Stream. -/
def Harmless (s : Site) : Act ε → Prop
  | .construct _ | .lender .. | .finalizeLender .. => True
  | .borrow i o => s.Gone (o.pair, i) → ¬ ∃ vals, o.method.params = .ok vals
  | .borrower _ j o => ∀ b, s.borrowers[j]? = some b → s.Gone (b.pair, b.lender) →
    (o.1.guarded = true ∧ isClosed (borrowerRef j j) s.heap = true) ∨ ¬ o.1.Converts (borrowerRef j j) s.heap
  | .stream j o => ∀ b, s.borrowers[j]? = some b → s.Gone (b.pair, b.lender) → ∀ m, o.method b.id = some m →
    isClosed (borrowerRef j b.lender) s.heap = true ∨ ¬ ∃ vals, m.params = .ok vals
  | .finalizeBorrower j => ∀ b, s.borrowers[j]? = some b → s.Gone (b.pair, b.lender) →
    b.pair.owned = none ∨ isClosed (borrowerRef j j) s.heap = true

/-- The condition of an act on the `j`-th borrower, read at that borrower. -/
theorem forall_borrower {j : Nat} {b : Borrower} {P : Borrower → Prop} (hj : s.borrowers[j]? = some b) :
    (∀ b', s.borrowers[j]? = some b' → P b') ↔ P b := by
  rw [hj]
  exact ⟨fun h => h b rfl, fun h b' hb' => by cases hb'; exact h⟩

/-- The spec of an act: which lender it may borrow from, and when it does. -/
def Spec (s s' : Site) (a : Act ε) : Prop :=
  ∃ q acts, Moved s s' q acts ∧ ((s.Gone q → ¬ acts) ↔ Harmless s a)

theorem lender_spec {p : Pair} {i : Nat} {b : Body ε} {a : Act ε} (hp : Public p.lender b)
    (hl : s.lenders[i]? = some p) (ho : b.opens p.lender = false) (ha : Harmless s a) :
    Spec s (s.ran (b.run p.lender (lenderRef i))) a :=
  ⟨(p, i), False, (hp.effect (lenderRef i) s.heap).moved rfl List.prefix_rfl List.prefix_rfl
    fun _ hb => lender_loaned hp ho hl hb, iff_of_true (fun _ => id) ha⟩

theorem borrow_spec (i : Nat) (o : Opening ε) : Spec s (s.opened i o) (.borrow i o) := by
  obtain ⟨hh, hl, hb⟩ := opened_frame s i o
  have he := Method.effect (Fn.through_plain o.through) (lenderRef i) s.heap
  refine ⟨(o.pair, i), _, he.moved hh (hl ▸ List.prefix_rfl) hb fun _ hb => through_loaned o.through hb, ?_⟩
  -- No constructor asks whether its lender is open.
  have hno : o.method.guard = none := by cases o <;> rfl
  unfold Method.Passes
  rw [hno]
  exact imp_congr_right fun _ => not_congr (and_iff_right (by rintro ⟨⟩))

theorem borrower_spec {k : Cls} {j : Nat} {b : Borrower} (o : Op ε k) (hj : s.borrowers[j]? = some b)
    (hk : b.pair.owned = some k) : Spec s (s.ran (o.1.run k (borrowerRef j j))) (.borrower k j o) := by
  refine ⟨(b.pair, b.lender), _, (o.2.effect (borrowerRef j j) s.heap).moved rfl List.prefix_rfl List.prefix_rfl
    fun _ hb => owned_loaned o.2 hj hk hb, ?_⟩
  simp only [Harmless]
  rw [forall_borrower hj, Body.not_acts]

theorem stream_spec {j : Nat} {b : Borrower} (o : StreamOp ε) (hi : Sound s) (hj : s.borrowers[j]? = some b)
    (hp : b.pair = .clientStream) :
    Spec s (s.ran (o.run b.id (borrowerRef j b.lender) (lenderRef b.lender))) (.stream j o) := by
  unfold StreamOp.run Spec
  simp only [Harmless]
  cases ho : o.method b.id with
  | some m =>
    obtain ⟨ht, hg⟩ := StreamOp.through ho
    have he := Method.effect (Fn.through_plain ht) (borrowerRef j b.lender) s.heap
    refine ⟨(.clientStream, b.lender), _, he.moved rfl List.prefix_rfl List.prefix_rfl
      fun _ hb => through_loaned ht hb, ?_⟩
    rw [forall_borrower hj, hp, ho]
    refine imp_congr_right fun _ => ?_
    unfold Method.Passes
    rw [hg, not_and_or, Classical.not_imp, Bool.not_eq_false]
    exact ⟨fun h m' hm' => by cases hm'; exact h.imp_left (·.2), fun h => (h m rfl).imp_left (⟨rfl, ·⟩)⟩
  | none =>
    have he := streamClose_effect (ε := ε) b.id (borrowerRef j b.lender) (lenderRef b.lender) s.heap
    refine ⟨(.clientStream, b.lender), _, he.moved rfl List.prefix_rfl List.prefix_rfl
      fun _ hb => through_loaned (p := .clientStream) rfl hb, iff_of_true (fun hg ⟨_, hc⟩ => ?_) ?_⟩
    · -- Freed, the client is closed, and `Stream.close` sees it.
      rw [(hi.gone _ hg).2] at hc; cases hc
    · rw [forall_borrower hj, ho]
      rintro - m ⟨⟩

theorem finalize_spec {j : Nat} {b : Borrower} (hj : s.borrowers[j]? = some b) :
    Spec s (s.dropped ε j b.pair) (.finalizeBorrower j : Act ε) := by
  unfold Site.dropped Spec
  simp only [Harmless]
  rw [forall_borrower hj]
  cases hk : b.pair.owned with
  | none =>
    exact ⟨(b.pair, b.lender), False, ⟨⟨[], (List.append_nil _).symm, loaned_nil⟩, fun _ => id, List.prefix_rfl,
      List.prefix_rfl⟩, iff_of_true (fun _ => id) fun _ => .inl rfl⟩
  | some k =>
    have he := close_effect (ε := ε) k.kind (borrowerRef j j) s.heap
    refine ⟨(b.pair, b.lender), _, he.moved rfl List.prefix_rfl List.prefix_rfl
      fun _ hb => owned_loaned (.close (ε := ε) k) hj hk hb, imp_congr_right fun _ => ?_⟩
    rw [Bool.not_eq_false]
    exact ⟨.inr, fun h => h.resolve_left (by rintro ⟨⟩)⟩

theorem step_spec {a : Act ε} (hi : Sound s) (h : s.step a = some s') : Spec s s' a := by
  cases a with
  | construct p =>
    cases h
    exact ⟨(p, 0), False, ⟨⟨[], (List.append_nil _).symm, loaned_nil⟩, fun _ => id, List.prefix_append _ _,
      List.prefix_rfl⟩, iff_of_true (fun _ => id) trivial⟩
  | lender p i o =>
    simp only [Site.step] at h
    split at h
    · rename_i hg
      cases h
      exact lender_spec o.2 hg.1 hg.2 trivial
    · cases h
  | finalizeLender p i =>
    simp only [Site.step] at h
    split at h
    · rename_i hg
      cases h
      exact lender_spec (.close (ε := ε) p.lender) hg (by cases p <;> rfl) trivial
    · cases h
  | borrow i o =>
    simp only [Site.step] at h
    split at h
    · cases h; exact borrow_spec i o
    · cases h
  | borrower k j o =>
    simp only [Site.step] at h
    split at h
    · rename_i b hj
      split at h
      · rename_i hk
        cases h; exact borrower_spec o hj hk
      · cases h
    · cases h
  | stream j o =>
    simp only [Site.step] at h
    split at h
    · rename_i b hj
      split at h
      · rename_i hp
        cases h; exact stream_spec o hi hj hp
      · cases h
    · cases h
  | finalizeBorrower j =>
    simp only [Site.step] at h
    split at h
    · rename_i b hj
      cases h; exact finalize_spec hj
    · cases h

theorem sound_init (ret : Nat → Ret) : Sound (.init ret) :=
  ⟨fun _ h => (not_freed_nil h).elim, by rintro c ⟨⟩⟩

/-- For every sequence of acts on any number of Servers, Clients and Logs and their borrowers: no
borrower is created and no call made on one after its lender's handle was freed, if and only if the
acts that come after a free are harmless. -/
theorem borrowers_kept {ret : Nat → Ret} {as : List (Act ε)} (h : runs Site.step (.init ret) as = some s) :
    s.Kept ↔ Meets Site.step Harmless (.init ret) as := by
  rw [runs_iff (P := Site.Kept) (I := Sound) (C := Harmless) ?_ ?_ as (sound_init ret) h]
  · exact and_iff_right fun _ => noStale_nil
  · intro s a s' hi hs
    obtain ⟨q, acts, hm, -⟩ := step_spec hi hs
    exact hm.sound hi
  · intro s a s' hi hs
    obtain ⟨q, acts, hm, hiff⟩ := step_spec hi hs
    rw [hm.kept_iff hi, hiff]

end

/-- A library that succeeds in every call. -/
def succeeds (_ : Nat) : Ret := ⟨0, 7, []⟩

/-- The client is closed first; its stream is closed and collected after it. -/
def lateStream : List (Act Unit) :=
  [.construct .clientStream, .borrow 0 (.openStream (.ok 0) (.ok [47]) (.ok none)),
    .lender .clientStream 0 ⟨_, .close _⟩, .stream 0 .close, .finalizeBorrower 0]

theorem borrowers_kept_stream : ∃ s, runs Site.step (.init succeeds) lateStream = some s ∧ s.Kept := by
  have h : runs Site.step (.init succeeds) lateStream = some _ := rfl
  refine ⟨_, h, (borrowers_kept h).2 ⟨trivial, fun hg => absurd hg (by decide), trivial, ?_, ?_, trivial⟩⟩
  · rintro b hb - m hm; cases hm
  · rintro b hb -; cases hb; exact .inl rfl

/-- The server is closed under its dht: the `close` of the dht still calls the library. -/
theorem dht_outlives_server : ∃ s,
    runs Site.step (.init succeeds)
      ([.construct .serverDht, .borrow 0 (.attach (.ok [.ok ⟨List.replicate 64 1, rfl⟩]) (.ok 0)),
      .lender .serverDht 0 ⟨_, .close _⟩, .borrower .dht 0 ⟨_, .close _⟩] : List (Act Unit)) = some s ∧
    s.heap.log.map (fun c => c.1.fn) = [.dhtAttach, .serverClose, .dhtClose] ∧ ¬ s.Kept :=
  ⟨_, rfl, rfl, fun h => absurd (h (.serverDht, 0)) (by decide)⟩

end Nwep.Native
