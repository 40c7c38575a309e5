/-
The life of a private key, over any sequence of operations on any number of keys, with every return code of
the library and every conversion error: no call is handed a key that was wiped, each key is wiped at most once,
and what is not wiped belongs to an open object, unless a call that failed wrote it.

`Ok` is the invariant. A lending operation leaves the ring as it is and lends the keys of open objects; one that
makes a key leaves it with a new object, or without a secret, or with the one of a failed call.
-/
import Nwep.Identity

namespace Nwep.Identity

open Lib Native

variable {ε α β : Type} {w w' : Ring}

/-! ## Runs -/

/-- The ring after the operations, the library returning `ret`. -/
def run (ret : Nat → Ret) (as : List (Op ε)) : Ring := as.foldl (fun w a => a.run w) ⟨⟨[], []⟩, ret, []⟩

/-- A call that wipes the key in the cell. -/
def Wipes (cell : Nat) (c : KeyCall × Ret) : Prop := c.1.fn = .zeroize ∧ cell ∈ c.1.keys

/-- A call that is handed the key in the cell. -/
def Lends (cell : Nat) (c : KeyCall × Ret) : Prop := cell ∈ c.1.keys

/-- A call that wrote a key into the cell and failed. -/
def Leaks (cell : Nat) (c : KeyCall × Ret) : Prop :=
  cell ∈ c.1.keys ∧ c.2.rc < 0 ∧ ∃ d, c.1.fn.writes c.2.data = some d ∧ d.priv ≠ List.replicate privkeySize 0

/-- Some call did. -/
def Leaked (cell : Nat) (l : List (KeyCall × Ret)) : Prop := ∃ c ∈ l, Leaks cell c

theorem leaked_append {cell : Nat} {l cs : List (KeyCall × Ret)} :
    Leaked cell (l ++ cs) ↔ Leaked cell l ∨ Leaked cell cs := by
  unfold Leaked
  simp only [List.mem_append, or_and_right, exists_or]

theorem leaked_singleton {cell : Nat} {c : KeyCall × Ret} : Leaked cell [c] ↔ Leaks cell c := by
  unfold Leaked
  simp only [List.mem_singleton, exists_eq_left]

instance (cell : Nat) : DecidablePred (Wipes cell) := fun _ => inferInstanceAs (Decidable (_ ∧ _))

/-- The cell belongs to an open object. -/
def Held (r : Keyring) (cell : Nat) : Prop := ∃ o ∈ r.objs, o.cell = cell ∧ o.closed = false

structure Ok (w : Ring) : Prop where
  stale : ∀ cell, NoStale (Wipes cell) (Lends cell) w.log
  fresh : ∀ c ∈ w.log, ∀ k ∈ c.1.keys, k < w.objs.cells.length
  owned : ∀ o ∈ w.objs.objs, o.cell < w.objs.cells.length
  distinct : (w.objs.objs.map KeyObj.cell).Nodup
  wiped : ∀ o ∈ w.objs.objs, o.closed = true ↔ Freed (Wipes o.cell) w.log
  secret : ∀ cell c, w.objs.cells[cell]? = some c →
    (c.priv ≠ List.replicate privkeySize 0 ∧ ¬ Held w.objs cell ↔ Leaked cell w.log)

theorem start_ok (ret : Nat → Ret) : Ok ⟨⟨[], []⟩, ret, []⟩ where
  stale _ := noStale_nil
  fresh c h := by cases h
  owned o h := by cases h
  distinct := .nil
  wiped o h := by cases h
  secret cell c h := by cases h

/-! ## Lending -/

/-- The functions that neither make a key nor wipe one. -/
def KeyFn.lends : KeyFn → Bool
  | .identityGenerate | .keypairLoadPem | .blsKeygen | .zeroize => false
  | _ => true

theorem not_wipes_of_lends {cell : Nat} {c : KeyCall × Ret} (h : c.1.fn.lends = true) : ¬ Wipes cell c := by
  rintro ⟨hz, -⟩
  rw [hz] at h
  exact Bool.false_ne_true h

theorem not_leaks_of_lends {cell : Nat} {c : KeyCall × Ret} (h : c.1.fn.lends = true) : ¬ Leaks cell c := by
  rintro ⟨-, -, d, hd, -⟩
  cases hfn : c.1.fn <;> rw [hfn] at h hd <;> first | exact Bool.false_ne_true h | cases hd

/-- The ring stays, and the calls made are handed keys of open objects. -/
def Lent (w w' : Ring) : Prop :=
  w'.objs = w.objs ∧ ∃ cs, w'.log = w.log ++ cs ∧ ∀ c ∈ cs, c.1.fn.lends = true ∧ ∀ k ∈ c.1.keys, Held w.objs k

theorem lent_refl (w : Ring) : Lent w w := ⟨rfl, [], (List.append_nil _).symm, fun c hc => by cases hc⟩

/-- An open object's key was not wiped. -/
theorem Ok.not_wiped {cell : Nat} (ho : Ok w) (h : Held w.objs cell) : ¬ Freed (Wipes cell) w.log := by
  obtain ⟨o, hmem, rfl, hopen⟩ := h
  rw [← ho.wiped o hmem, hopen]
  exact Bool.false_ne_true

theorem Ok.lent (ho : Ok w) (h : Lent w w') : Ok w' := by
  obtain ⟨hobjs, cs, hlog, hcs⟩ := h
  have hnone : ∀ cell, ¬ Freed (Wipes cell) cs := by
    rintro cell ⟨c, hc, hw⟩
    exact not_wipes_of_lends (hcs c hc).1 hw
  have hleaked : ∀ cell, Leaked cell w'.log ↔ Leaked cell w.log := by
    intro cell
    rw [hlog, leaked_append, or_iff_left]
    rintro ⟨c, hc, hl⟩
    exact not_leaks_of_lends (hcs c hc).1 hl
  have hfreed : ∀ cell, Freed (Wipes cell) w'.log ↔ Freed (Wipes cell) w.log := by
    intro cell
    rw [hlog, freed_append, or_iff_left (hnone cell)]
  constructor
  · intro cell
    rw [hlog, noStale_append]
    refine ⟨ho.stale cell, noStale_of_not_freed (hnone cell), fun hf c hc hl => ?_⟩
    exact ho.not_wiped ((hcs c hc).2 cell hl) hf
  · intro c hc k hk
    rw [hobjs]
    rw [hlog, List.mem_append] at hc
    rcases hc with hc | hc
    · exact ho.fresh c hc k hk
    · obtain ⟨o, hmem, rfl, -⟩ := (hcs c hc).2 k hk
      exact ho.owned o hmem
  · rw [hobjs]; exact ho.owned
  · rw [hobjs]; exact ho.distinct
  · intro o hmem
    rw [hfreed]
    exact ho.wiped o (hobjs ▸ hmem)
  · intro cell c hc
    rw [hobjs] at hc ⊢
    rw [hleaked]; exact ho.secret cell c hc

/-- A program that only reads: it returns what is in `Q`, or raises. -/
def Reads (Q : Ring → α → Prop) (x : Prog ε α) : Prop :=
  ∀ w, (∃ a, x w = .ok a w ∧ Q w a) ∨ ∃ e, x w = .error e w

section Reads

variable {Q : Ring → α → Prop} {P : Ring → β → Prop} {x : Prog ε α} {f : α → Prog ε β}

theorem reads_raise (y : Except (PyExc ε) α) : Reads (fun _ _ => True) (raise y : Prog ε α) := by
  intro w
  cases y with
  | ok a => exact .inl ⟨a, rfl, trivial⟩
  | error e => exact .inr ⟨e, rfl⟩

theorem Reads.bind (hx : Reads Q x) (hf : ∀ a w, Q w a → (∃ b, f a w = .ok b w ∧ P w b) ∨ ∃ e, f a w = .error e w) :
    Reads P (x >>= f) := by
  intro w
  rcases hx w with ⟨a, ha, hq⟩ | ⟨e, he⟩
  · rw [bind_of_ok ha]; exact hf a w hq
  · rw [bind_of_error he]; exact .inr ⟨e, rfl⟩

theorem Reads.mapM {g : α → Prog ε β} (hg : ∀ a, Reads P (g a)) :
    ∀ l : List α, Reads (fun w bs => ∀ b ∈ bs, P w b) (l.mapM g)
  | [], w => .inl ⟨[], by rw [List.mapM_nil]; rfl, fun b hb => by cases hb⟩
  | a :: l, w => by
    rw [List.mapM_cons]
    rcases hg a w with ⟨b, hb, hp⟩ | ⟨e, he⟩
    · rw [bind_of_ok hb]
      rcases Reads.mapM hg l w with ⟨bs, hbs, hps⟩ | ⟨e, he⟩
      · rw [bind_of_ok hbs]
        refine .inl ⟨b :: bs, rfl, fun c hc => ?_⟩
        rcases List.mem_cons.1 hc with rfl | hc
        · exact hp
        · exact hps c hc
      · rw [bind_of_error he]; exact .inr ⟨e, rfl⟩
    · rw [bind_of_error he]; exact .inr ⟨e, rfl⟩

/-- What is read decides what is lent. -/
theorem Reads.lent (hx : Reads Q x) (hf : ∀ a, Q w a → Lent w (after (f a) w)) : Lent w (after (x >>= f) w) := by
  rcases hx w with ⟨a, ha, hq⟩ | ⟨e, he⟩
  · rw [after_bind_ok ha]; exact hf a hq
  · rw [after_bind_error he]; exact lent_refl w

end Reads

/-- `_check_open` passes for an open object. -/
theorem reads_lend (i : Nat) : Reads (fun w o => Held w.objs o.cell) (lend i : Prog ε KeyObj) := by
  intro w
  unfold lend
  rw [get_bind]
  by_cases hc : (w.objs.obj i).closed = true
  · rw [if_pos hc]; exact .inr ⟨_, rfl⟩
  · rw [if_neg hc]
    refine .inl ⟨_, rfl, ?_⟩
    unfold Keyring.obj at hc ⊢
    cases hi : w.objs.objs[i]? with
    | none => rw [hi] at hc; exact absurd rfl hc
    | some o =>
      rw [hi] at hc
      exact ⟨o, List.mem_of_getElem? hi, rfl, by simpa using hc⟩

theorem reads_secretBytes (i : Nat) : Reads (fun w p => Held w.objs p.1) (secretBytes i : Prog ε (Nat × Bytes)) :=
  (reads_lend i).bind fun _ _ ho => .inl ⟨_, rfl, ho⟩

/-- One call with keys of open objects, and a result made of its reply. -/
theorem lent_call {c : KeyCall} {f : Ret → Prog ε α} (hf : ∀ ret, Along (· = ·) (f ret)) (hz : c.fn.lends = true)
    (hk : ∀ k ∈ c.keys, Held w.objs k) : Lent w (after (call c >>= f) w) := by
  have hafter : after (call c >>= f) w = w.called c := by
    rw [after_bind_ok (call_ok c w)]
    exact (hf _ _).symm
  rw [hafter]
  refine ⟨rfl, [_], rfl, fun d hd => ?_⟩
  rw [List.mem_singleton.1 hd]
  exact ⟨hz, hk⟩

theorem lent_checkedCall {c : KeyCall} {result : Ret → α} (hz : c.fn.lends = true) (hk : ∀ k ∈ c.keys, Held w.objs k) :
    Lent w (after (checkedCall c result : Prog ε α) w) := by
  refine lent_call (fun ret => ?_) hz hk
  exact (along_check _).bind fun _ => Along.pure _

theorem reads_lendKey (identity : Arg ε Nat) :
    Reads (fun w k => Held w.objs k) (do let i ← arg identity; return (← lend i).cell : Prog ε Nat) :=
  (reads_raise _).bind fun i w _ => (reads_lend i).bind (fun o _ ho => .inl ⟨o.cell, rfl, ho⟩) w

/-- A function that lends keys and makes something of the reply. -/
theorem lent_lendTo {fn : KeyFn} {f : Ret → Prog ε α} (hz : fn.lends = true) (hf : ∀ ret, Along (· = ·) (f ret))
    (identities : List (Arg ε Nat)) (params : List (Param ε)) (w : Ring) :
    Lent w (after (lendTo fn identities params >>= f) w) := by
  unfold lendTo
  simp only [bind_assoc]
  refine (Reads.mapM reads_lendKey identities).lent fun keys hkeys => ?_
  exact (reads_raise _).lent fun vals _ => lent_call hf hz hkeys

/-- The spec of every lending function: for each operation but the ones that make or close a key. -/
theorem lent_encodeEntry {fn : KeyFn} (hz : fn.lends = true) (identities : List (Arg ε Nat)) (params : List (Param ε))
    (w : Ring) : Lent w (after (encodeEntry fn identities params) w) :=
  lent_lendTo hz (fun _ => (along_check _).bind fun _ => Along.pure _) identities _ w

theorem lent_makeWith (fn : Make) (identity : Arg ε Nat) (params : List (Param ε)) (w : Ring) :
    Lent w (after (makeWith fn identity params) w) :=
  lent_lendTo rfl (fun _ => (along_check _).bind fun _ => Along.pure _) [identity] params w

theorem lent_anchorNode (trust : Bool) (identity blsKeypair : Nat) (shareIndex collectionWindowMs : Arg ε Int)
    (w : Ring) : Lent w (after (anchorNode trust identity blsKeypair shareIndex collectionWindowMs) w) := by
  unfold anchorNode
  refine (reads_raise _).lent fun _ _ => ?_
  refine (reads_lend identity).lent fun kp hkp => ?_
  refine (reads_secretBytes blsKeypair).lent fun sk hsk => ?_
  obtain ⟨sk, secret⟩ := sk
  refine (reads_raise _).lent fun vals _ => ?_
  refine lent_call (fun ret => ?_) rfl ?_
  · split
    · exact Along.throw _
    · exact Along.pure _
  · rintro k (_ | ⟨_, _ | ⟨_, ⟨⟩⟩⟩)
    · exact hkp
    · exact hsk

theorem lent_genesisCheckpoint (trust : Bool) (founders : List Nat) (threshold : Arg ε Int) (w : Ring) :
    Lent w (after (genesisCheckpoint trust founders threshold) w) := by
  unfold genesisCheckpoint
  refine (reads_raise _).lent fun _ _ => ?_
  split
  · exact lent_refl w
  · refine (Reads.mapM reads_secretBytes founders).lent fun secrets hsecrets => ?_
    refine (reads_raise _).lent fun indices _ => ?_
    refine (reads_raise _).lent fun threshold _ => ?_
    refine lent_checkedCall rfl fun k hk => ?_
    obtain ⟨p, hp, rfl⟩ := List.mem_map.1 hk
    exact hsecrets p hp

/-! ## Making a key -/

section Other

variable {n cell : Nat} {l cs : List (KeyCall × Ret)}

/-- Calls on one cell leave the others alone. -/
theorem not_lends_other (hkeys : ∀ x ∈ cs, x.1.keys = [n]) (hne : cell ≠ n) : ∀ x ∈ cs, ¬ Lends cell x := by
  intro x hx hl
  unfold Lends at hl
  rw [hkeys x hx, List.mem_singleton] at hl
  exact hne hl

theorem freed_other (hkeys : ∀ x ∈ cs, x.1.keys = [n]) (hne : cell ≠ n) :
    Freed (Wipes cell) (l ++ cs) ↔ Freed (Wipes cell) l := by
  rw [freed_append, or_iff_left]
  rintro ⟨x, hx, -, hl⟩
  exact not_lends_other hkeys hne x hx hl

theorem leaked_other (hkeys : ∀ x ∈ cs, x.1.keys = [n]) (hne : cell ≠ n) : Leaked cell (l ++ cs) ↔ Leaked cell l := by
  rw [leaked_append, or_iff_left]
  rintro ⟨x, hx, hl, -⟩
  exact not_lends_other hkeys hne x hx hl

/-- So does a new object that holds the cell. -/
theorem held_other {r r' : Keyring} (h : r'.objs = r.objs ∨ ∃ o, r'.objs = r.objs ++ [o] ∧ o.cell = n)
    (hne : cell ≠ n) :
    Held r' cell ↔ Held r cell := by
  unfold Held
  rcases h with h | ⟨o, h, hcell⟩
  · rw [h]
  · rw [h]
    constructor
    · rintro ⟨x, hx, rfl, hxo⟩
      rcases List.mem_append.1 hx with hx | hx
      · exact ⟨x, hx, rfl, hxo⟩
      · rw [List.mem_singleton.1 hx] at hne
        exact absurd hcell hne
    · rintro ⟨x, hx, hxc, hxo⟩
      exact ⟨x, List.mem_append_left _ hx, hxc, hxo⟩

end Other

/-- A cell is added, with calls on it alone: a new object holds it, or it holds a secret only where one leaked. -/
def Made (w w' : Ring) : Prop :=
  ∃ c cs, w'.objs.cells = w.objs.cells ++ [c] ∧ w'.log = w.log ++ cs ∧
    NoStale (Wipes w.objs.cells.length) (Lends w.objs.cells.length) cs ∧ (∀ x ∈ cs, x.1.keys = [w.objs.cells.length]) ∧
    ((w'.objs.objs = w.objs.objs ∧ (c.priv ≠ List.replicate privkeySize 0 ↔ Leaked w.objs.cells.length cs)) ∨
      ∃ o, w'.objs.objs = w.objs.objs ++ [o] ∧ o.cell = w.objs.cells.length ∧ o.closed = false ∧
        ¬ Freed (Wipes w.objs.cells.length) cs ∧ ¬ Leaked w.objs.cells.length cs)

theorem Ok.made (ho : Ok w) (h : Made w w') : Ok w' := by
  obtain ⟨c, cs, hcells, hlog, hstale, hkeys, hobjs⟩ := h
  have hlen : w'.objs.cells.length = w.objs.cells.length + 1 := by
    rw [hcells, List.length_append, List.length_singleton]
  have hnew : ¬ Freed (Wipes w.objs.cells.length) w.log := by
    rintro ⟨c, hc, -, hk⟩
    exact Nat.lt_irrefl _ (ho.fresh c hc _ hk)
  have hclean : ¬ Leaked w.objs.cells.length w.log := by
    rintro ⟨c, hc, hk, -⟩
    exact Nat.lt_irrefl _ (ho.fresh c hc _ hk)
  have hold : ∀ o ∈ w.objs.objs, o.closed = true ↔ Freed (Wipes o.cell) w'.log := fun o hmem => by
    rw [hlog, freed_other hkeys (Nat.ne_of_lt (ho.owned o hmem))]; exact ho.wiped o hmem
  have hgrown : w'.objs.objs = w.objs.objs ∨ ∃ o, w'.objs.objs = w.objs.objs ++ [o] ∧ o.cell = w.objs.cells.length :=
    hobjs.imp And.left fun ⟨o, he, hcell, _⟩ => ⟨o, he, hcell⟩
  constructor
  · intro cell
    rw [hlog, noStale_append]
    by_cases hne : cell = w.objs.cells.length
    · subst hne
      exact ⟨ho.stale _, hstale, fun hf => absurd hf hnew⟩
    · have hother := not_lends_other hkeys hne
      exact ⟨ho.stale _, noStale_of_not_used hother, fun _ => hother⟩
  · intro d hd k hk
    rw [hlen]
    rw [hlog, List.mem_append] at hd
    rcases hd with hd | hd
    · have := ho.fresh d hd k hk
      omega
    · rw [hkeys d hd, List.mem_singleton] at hk
      omega
  · intro o hmem
    rw [hlen]
    rcases hobjs with ⟨he, -⟩ | ⟨o', he, hcell, -⟩
    · have := ho.owned o (he ▸ hmem)
      omega
    · rw [he, List.mem_append, List.mem_singleton] at hmem
      rcases hmem with hmem | rfl
      · have := ho.owned o hmem
        omega
      · omega
  · rcases hobjs with ⟨he, -⟩ | ⟨o, he, hcell, -⟩
    · rw [he]; exact ho.distinct
    · rw [he, List.map_append, List.nodup_append]
      refine ⟨ho.distinct, by simp, ?_⟩
      rintro a ha b hb rfl
      obtain ⟨o', hmem, rfl⟩ := List.mem_map.1 ha
      rw [List.map_singleton, List.mem_singleton, hcell] at hb
      exact Nat.ne_of_lt (ho.owned o' hmem) hb
  · intro o hmem
    rcases hobjs with ⟨he, -⟩ | ⟨o', he, hcell, hopen, hnot, -⟩
    · exact hold o (he ▸ hmem)
    · rw [he, List.mem_append, List.mem_singleton] at hmem
      rcases hmem with hmem | rfl
      · exact hold o hmem
      · rw [hopen, hcell, hlog, freed_append]
        exact ⟨fun h => (by cases h), fun h => absurd h (not_or_intro hnew hnot)⟩
  · intro cell d hd
    rw [hcells] at hd
    by_cases hlt : cell < w.objs.cells.length
    · rw [List.getElem?_append_left hlt] at hd
      rw [held_other hgrown (Nat.ne_of_lt hlt), hlog, leaked_other hkeys (Nat.ne_of_lt hlt)]
      exact ho.secret cell d hd
    · rw [List.getElem?_append_right (by omega), List.getElem?_singleton] at hd
      obtain ⟨hzero, hsome⟩ := Option.ite_none_right_eq_some.1 hd
      cases hsome
      obtain rfl : cell = w.objs.cells.length := by omega
      rw [hlog, leaked_append, or_iff_right hclean]
      rcases hobjs with ⟨he, hsecret⟩ | ⟨o, he, hcell, hopen, -, hnot⟩
      · -- no object has the new place
        rw [← hsecret, and_iff_left]
        rintro ⟨o, hmem, hcell, -⟩
        have := ho.owned o (he ▸ hmem)
        omega
      · have hown : Held w'.objs w.objs.cells.length := ⟨o, by rw [he]; simp, hcell, hopen⟩
        exact iff_of_false (fun h => h.2 hown) hnot

theorem modify_last {l : List α} {a : α} (f : α → α) : (l ++ [a]).modify l.length f = l ++ [f a] := by
  induction l with
  | nil => rfl
  | cons b l ih => exact congrArg (b :: ·) ih

/-- `v` is `w` with the new cell `c` and calls on it, none of which wipes it or leaks its key. -/
structure Fresh (w v : Ring) (c : Cell) : Prop where
  cells : v.objs.cells = w.objs.cells ++ [c]
  objs : v.objs.objs = w.objs.objs
  log : ∃ cs, v.log = w.log ++ cs ∧ ∀ x ∈ cs, x.1.fn ≠ .zeroize ∧ x.1.keys = [w.objs.cells.length] ∧
    ¬ Leaks w.objs.cells.length x

section Fresh

variable {v : Ring} {c : Cell}

theorem fresh_alloc (w : Ring) : ∃ v, (alloc : Prog ε Nat) w = .ok w.objs.cells.length v ∧ Fresh w v .zero :=
  ⟨_, rfl, rfl, rfl, [], (List.append_nil _).symm, fun x hx => by cases hx⟩

theorem Fresh.called (h : Fresh w v c) {x : KeyCall} (hz : x.fn ≠ .zeroize) (hk : x.keys = [w.objs.cells.length])
    (hl : ¬ Leaks w.objs.cells.length (x, v.ret v.log.length)) : Fresh w (v.called x) c := by
  obtain ⟨cs, hlog, hcs⟩ := h.log
  refine ⟨h.cells, h.objs, cs ++ [_], by rw [World.called_log, hlog, List.append_assoc], fun y hy => ?_⟩
  rcases List.mem_append.1 hy with hy | hy
  · exact hcs y hy
  · rw [List.mem_singleton.1 hy]
    exact ⟨hz, hk, hlog ▸ hl⟩

theorem Fresh.set (h : Fresh w v c) (f : Cell → Cell) :
    ∃ v', (setCell w.objs.cells.length f : Prog ε Unit) v = .ok () v' ∧ Fresh w v' (f c) := by
  refine ⟨_, rfl, ?_, h.objs, h.log⟩
  show v.objs.cells.modify _ f = _
  rw [h.cells, modify_last]

theorem Fresh.stale (h : Fresh w v c) : ∃ cs, v.log = w.log ++ cs ∧ (∀ x ∈ cs, x.1.keys = [w.objs.cells.length]) ∧
    ¬ Freed (Wipes w.objs.cells.length) cs ∧ ¬ Leaked w.objs.cells.length cs := by
  obtain ⟨cs, hlog, hcs⟩ := h.log
  refine ⟨cs, hlog, fun x hx => (hcs x hx).2.1, ?_, ?_⟩
  · rintro ⟨x, hx, hz, -⟩
    exact (hcs x hx).1 hz
  · rintro ⟨x, hx, hl⟩
    exact (hcs x hx).2.2 hl

/-- No object was made, and the library had written nothing. -/
theorem Fresh.failed (h : Fresh w v c) (hc : c.priv = List.replicate privkeySize 0) : Made w v := by
  obtain ⟨cs, hlog, hkeys, hnone, hclean⟩ := h.stale
  exact ⟨c, cs, h.cells, hlog, noStale_of_not_freed hnone, hkeys, .inl ⟨h.objs, iff_of_false (not_not.2 hc) hclean⟩⟩

theorem Fresh.wrapped (h : Fresh w v c) {o : KeyObj} (ho : o.cell = w.objs.cells.length) (hopen : o.closed = false) :
    Made w (after (wrap o : Prog ε Nat) v) := by
  obtain ⟨cs, hlog, hkeys, hnone, hclean⟩ := h.stale
  refine ⟨c, cs, h.cells, hlog, noStale_of_not_freed hnone, hkeys, .inr ⟨o, ?_, ho, hopen, hnone, hclean⟩⟩
  show v.objs.objs ++ [o] = _
  rw [h.objs]

/-- One more call on the cell, after which no object holds it. -/
theorem Fresh.lost (h : Fresh w v c) {x : KeyCall} (hk : x.keys = [w.objs.cells.length]) {f : Cell → Cell} {v' : Ring}
    (hset : (setCell w.objs.cells.length f : Prog ε Unit) (v.called x) = .ok () v')
    (hf : (f c).priv ≠ List.replicate privkeySize 0 ↔ Leaks w.objs.cells.length (x, v.ret v.log.length)) :
    Made w v' := by
  obtain ⟨cs, hlog, hkeys, hnone, hclean⟩ := h.stale
  cases hset
  refine ⟨f c, cs ++ [(x, v.ret v.log.length)], ?_, ?_, ?_, fun y hy => ?_, .inl ⟨h.objs, ?_⟩⟩
  · show v.objs.cells.modify _ f = _
    rw [h.cells, modify_last]
  · show v.log ++ _ = _
    rw [hlog, List.append_assoc]
  · exact noStale_append.2 ⟨noStale_of_not_freed hnone, noStale_singleton _, fun hfreed => absurd hfreed hnone⟩
  · rcases List.mem_append.1 hy with hy | hy
    · exact hkeys y hy
    · rw [List.mem_singleton.1 hy]; exact hk
  · rw [leaked_append, or_iff_right hclean, leaked_singleton]; exact hf

end Fresh

/-- A call that makes a key: the program goes on with the key, or the call leaked what it wrote. -/
theorem Fresh.making {v : Ring} (h : Fresh w v .zero) {fn : KeyFn} {args : List Val} (hz : fn ≠ .zeroize)
    (hfn : ∀ data, fn.writes data ≠ none) {g : Ret → Prog ε Nat}
    (hg : ∀ ret v c, Fresh w v c → Made w (after (g ret) v)) :
    Made w (after (do
      let ret ← makeKey fn w.objs.cells.length args
      g ret) v) := by
  unfold makeKey
  simp only [bind_assoc]
  rw [after_bind_ok (call_ok _ v)]
  generalize hret : v.ret v.log.length = ret
  obtain ⟨d, hd⟩ := Option.ne_none_iff_exists'.1 (hfn ret.data)
  obtain ⟨v', hset⟩ : ∃ v', (setCell w.objs.cells.length (fun c => (fn.writes ret.data).getD c) : Prog ε Unit)
    (v.called ⟨fn, [w.objs.cells.length], args⟩) = .ok () v' := ⟨_, rfl⟩
  rw [after_bind_ok hset]
  rcases check_cases (ε := ε) ret.rc v' with ⟨hn, hc⟩ | ⟨hn, hc⟩
  · have hcalled := h.called (x := ⟨fn, [w.objs.cells.length], args⟩) hz rfl fun hl => by
      rw [hret] at hl
      exact absurd hl.2.1 (Int.not_lt.2 hn)
    obtain ⟨u, hu, hfresh⟩ := hcalled.set (ε := ε) fun c => (fn.writes ret.data).getD c
    rw [hset] at hu
    cases hu
    rw [after_bind_ok hc]
    exact hg ret _ _ hfresh
  · rw [after_bind_error hc]
    refine h.lost rfl hset ?_
    rw [hret, hd, Option.getD_some]
    constructor
    · intro hne
      exact ⟨List.mem_singleton_self _, hn, d, hd, hne⟩
    · rintro ⟨-, -, d', hd', hne⟩
      rw [hd] at hd'
      cases hd'
      exact hne

theorem made_generate (w : Ring) : Made w (after (generate : Prog ε Nat) w) := by
  unfold generate
  obtain ⟨v, halloc, hv⟩ := fresh_alloc (ε := ε) w
  rw [after_bind_ok halloc]
  exact hv.making (by simp) (by simp [KeyFn.writes]) fun ret v c h => h.wrapped rfl rfl

/-- The name of a loaded key, or the key is wiped. -/
theorem made_nameOf {v : Ring} {c : Cell} (h : Fresh w v c) :
    Made w (after (do
      let nodeId ← nameOf w.objs.cells.length
      wrap ⟨.ed25519, w.objs.cells.length, nodeId.bytes, false⟩ : Prog ε Nat) v) := by
  unfold nameOf
  rw [bind_assoc, after_bind_ok (call_ok _ v)]
  have hcalled := h.called (x := ⟨.nodeidFromPubkey, [w.objs.cells.length], []⟩) (by simp) rfl (not_leaks_of_lends rfl)
  generalize v.ret v.log.length = ret
  generalize v.called _ = u at hcalled
  rcases check_cases (ε := ε) ret.rc u with ⟨-, hc⟩ | ⟨-, hc⟩
  · have hpass : (do let _ ← check ret.rc; return NodeId.ofBuffer ret.data : Prog ε NodeId) u =
        .ok (.ofBuffer ret.data) u :=
      bind_of_ok hc _
    rw [after_bind_ok (tryCatch_of_ok hpass _)]
    exact hcalled.wrapped rfl rfl
  · have hraise : (do let _ ← check ret.rc; return NodeId.ofBuffer ret.data : Prog ε NodeId) u =
        .error (.nwep ret.rc) u :=
      bind_of_error hc _
    obtain ⟨v', hout, hset⟩ :
        ∃ v', (wipeOut w.objs.cells.length (.nwep ret.rc) : Prog ε NodeId) u = .error (.nwep ret.rc) v' ∧
      (setCell w.objs.cells.length Cell.wipe : Prog ε Unit)
        (u.called ⟨.zeroize, [w.objs.cells.length], [.int privkeySize]⟩) = .ok () v' := ⟨_, rfl, rfl⟩
    rw [after_bind_error ((tryCatch_of_error hraise _).trans hout)]
    refine hcalled.lost rfl hset (iff_of_false (fun hne => hne rfl) ?_)
    rintro ⟨-, -, d, hd, -⟩
    cases hd

theorem made_fromPem (pem : Arg ε Bytes) (w : Ring) : Made w (after (fromPem pem) w) := by
  unfold fromPem
  obtain ⟨v, halloc, hv⟩ := fresh_alloc (ε := ε) w
  rw [after_bind_ok halloc]
  cases pem with
  | error e =>
    rw [after_bind_error (arg_error e v)]
    exact hv.failed rfl
  | ok raw =>
    rw [after_bind_ok (arg_ok raw v)]
    exact hv.making (by simp) (by simp [KeyFn.writes]) fun ret v c h => made_nameOf h

theorem made_blsGenerate (trust : Bool) (w : Ring) :
    after (blsGenerate trust : Prog ε Nat) w = w ∨ Made w (after (blsGenerate trust : Prog ε Nat) w) := by
  unfold blsGenerate
  rcases reads_raise (ε := ε) (requireTrust trust) w with ⟨u, hu, -⟩ | ⟨e, he⟩
  · right
    obtain ⟨v, halloc, hv⟩ := fresh_alloc (ε := ε) w
    rw [after_bind_ok hu, after_bind_ok halloc]
    exact hv.making (by simp) (by simp [KeyFn.writes]) fun ret v c h => h.wrapped rfl rfl
  · left
    exact after_bind_error he _

/-! ## Closing a key -/

/-- The object `o` at the place `i` is closed: of the others nothing changes. -/
theorem mem_shut {l : List KeyObj} {i : Nat} {o x : KeyObj} (hd : (l.map KeyObj.cell).Nodup) (hi : l[i]? = some o) :
    x ∈ l.modify i KeyObj.shut ↔ x = o.shut ∨ (x ∈ l ∧ x.cell ≠ o.cell) := by
  have hplace {j : Nat} (hj : l[j]? = some x) (hc : x.cell = o.cell) : j = i := by
    obtain ⟨hlj, -⟩ := List.getElem?_eq_some_iff.1 hj
    refine (List.getElem?_inj (by rwa [List.length_map]) hd).1 ?_
    rw [List.getElem?_map, List.getElem?_map, hj, hi, Option.map_some, Option.map_some, hc]
  rw [List.mem_iff_getElem?]
  constructor
  · rintro ⟨j, hj⟩
    rw [List.getElem?_modify] at hj
    obtain ⟨y, hy, hx⟩ := Option.map_eq_some_iff.1 hj
    by_cases hij : i = j
    · subst hij
      rw [hi] at hy
      cases hy
      rw [if_pos rfl] at hx
      exact .inl hx.symm
    · rw [if_neg hij] at hx
      subst hx
      exact .inr ⟨List.mem_of_getElem? hy, fun hc => hij (hplace hy hc).symm⟩
  · rintro (rfl | ⟨hx, hne⟩)
    · exact ⟨i, by rw [List.getElem?_modify_eq, hi]; rfl⟩
    · obtain ⟨j, hj⟩ := List.mem_iff_getElem?.1 hx
      have hij : i ≠ j := by
        rintro rfl
        rw [hi] at hj
        cases hj; exact hne rfl
      exact ⟨j, by rw [List.getElem?_modify_ne _ _ hij, hj]⟩

/-- An open object's key is wiped and the object closed, or nothing happens. -/
theorem close_cases (i : Nat) (w : Ring) : after (close i : Prog ε Unit) w = w ∨
    ∃ o ret, w.objs.objs[i]? = some o ∧ o.closed = false ∧ after (close i : Prog ε Unit) w =
      ⟨⟨w.objs.cells.modify o.cell Cell.wipe, w.objs.objs.modify i KeyObj.shut⟩, w.ret,
        w.log ++ [(⟨.zeroize, [o.cell], [.int privkeySize]⟩, ret)]⟩ := by
  unfold close
  by_cases hc : (w.objs.obj i).closed = true
  · left
    unfold after
    rw [get_bind, if_pos hc]; rfl
  · right
    unfold Keyring.obj at hc
    cases hi : w.objs.objs[i]? with
    | none => rw [hi] at hc; exact absurd rfl hc
    | some o =>
      rw [hi] at hc
      have ho : w.objs.obj i = o := by
        unfold Keyring.obj
        rw [hi]; rfl
      have hopen : o.closed = false := by simpa using hc
      refine ⟨o, w.ret w.log.length, rfl, hopen, ?_⟩
      unfold after
      rw [get_bind, ho, hopen]; rfl

theorem Ok.close (hok : Ok w) (i : Nat) : Ok (after (close i : Prog ε Unit) w) := by
  rcases close_cases (ε := ε) i w with h | ⟨o, ret, hi, hopen, h⟩
  · rw [h]; exact hok
  rw [h]
  have hmem : o ∈ w.objs.objs := List.mem_of_getElem? hi
  have hheld : Held w.objs o.cell := ⟨o, hmem, rfl, hopen⟩
  have hshut {x : KeyObj} := mem_shut (x := x) hok.distinct hi
  have hfreed (cell : Nat) : Freed (Wipes cell) (w.log ++ [(⟨.zeroize, [o.cell], [.int privkeySize]⟩, ret)]) ↔
      Freed (Wipes cell) w.log ∨ cell = o.cell := by
    rw [freed_append, freed_singleton]
    unfold Wipes
    simp
  have hleaked (cell : Nat) :
      Leaked cell (w.log ++ [(⟨.zeroize, [o.cell], [.int privkeySize]⟩, ret)]) ↔ Leaked cell w.log := by
    rw [leaked_append, leaked_singleton, or_iff_left]
    rintro ⟨-, -, d, hd, -⟩
    cases hd
  constructor
  · intro cell
    refine noStale_append.2 ⟨hok.stale cell, noStale_singleton _, fun hf c hc hl => ?_⟩
    rw [List.mem_singleton.1 hc] at hl
    rw [List.mem_singleton.1 hl] at hf
    exact hok.not_wiped hheld hf
  · intro c hc k hk
    simp only [List.length_modify]
    rcases List.mem_append.1 hc with hc | hc
    · exact hok.fresh c hc k hk
    · rw [List.mem_singleton.1 hc] at hk
      rw [List.mem_singleton.1 hk]
      exact hok.owned o hmem
  · intro x hx
    simp only [List.length_modify]
    rcases hshut.1 hx with rfl | ⟨hx, -⟩
    · exact hok.owned o hmem
    · exact hok.owned x hx
  · have hcells : (w.objs.objs.modify i KeyObj.shut).map KeyObj.cell = w.objs.objs.map KeyObj.cell := by
      refine List.ext_getElem? fun j => ?_
      rw [List.getElem?_map, List.getElem?_map, List.getElem?_modify]
      cases w.objs.objs[j]? with
      | none => rfl
      | some x => by_cases hij : i = j <;> simp [hij, KeyObj.shut]
    show ((w.objs.objs.modify i KeyObj.shut).map KeyObj.cell).Nodup
    rw [hcells]; exact hok.distinct
  · intro x hx
    rw [hfreed]
    rcases hshut.1 hx with rfl | ⟨hx, hne⟩
    · exact ⟨fun _ => .inr rfl, fun _ => rfl⟩
    · rw [or_iff_left hne]; exact hok.wiped x hx
  · intro cell c hc
    rw [hleaked]
    by_cases hcell : cell = o.cell
    · subst hcell
      rw [List.getElem?_modify_eq] at hc
      obtain ⟨d, hd, rfl⟩ := Option.map_eq_some_iff.1 hc
      exact iff_of_false (fun h => h.1 rfl) fun hl => ((hok.secret _ d hd).2 hl).2 hheld
    · rw [List.getElem?_modify_ne _ _ (Ne.symm hcell)] at hc
      rw [← hok.secret cell c hc]
      refine and_congr_right fun _ => not_congr ⟨?_, ?_⟩
      · rintro ⟨x, hx, hxc, hxo⟩
        rcases hshut.1 hx with rfl | ⟨hx, -⟩
        · exact absurd hxc.symm hcell
        · exact ⟨x, hx, hxc, hxo⟩
      · rintro ⟨x, hx, rfl, hxo⟩
        exact ⟨x, hshut.2 (.inr ⟨hx, hcell⟩), rfl, hxo⟩

/-! ## Every run -/

/-- The spec of every operation. -/
theorem Ok.op (hok : Ok w) (a : Op ε) : Ok (a.run w) := by
  cases a with
  | generate => exact hok.made (made_generate w)
  | fromPem pem => exact hok.made (made_fromPem pem w)
  | blsGenerate trust =>
    rcases made_blsGenerate (ε := ε) trust w with h | h
    · show Ok (after (blsGenerate trust : Prog ε Nat) w)
      rw [h]; exact hok
    · exact hok.made h
  | close i => exact hok.close i
  | toPem i => exact hok.lent ((reads_lend i).lent fun o ho => lent_checkedCall rfl (by simpa using ho))
  | sign i message | blsSign i message =>
    refine hok.lent ((reads_lend i).lent fun o ho => ?_)
    exact (reads_raise _).lent fun m _ => lent_checkedCall rfl (by simpa using ho)
  | publicKey i => exact hok.lent ((reads_lend i).lent fun o _ => lent_refl w)
  | keyBinding identity recoveryCommitment timestamp =>
    exact hok.lent ((reads_raise _).lent fun _ _ => lent_encodeEntry rfl _ _ w)
  | keyRotation => exact hok.lent (lent_encodeEntry rfl _ _ w)
  | revocation nodeId revokedPubkey recoveryIdentity reason timestamp =>
    exact hok.lent ((reads_raise _).lent fun _ _ => lent_encodeEntry rfl _ _ w)
  | logServer identity log =>
    refine hok.lent (lent_lendTo rfl (fun ret => ?_) _ _ w)
    split
    · exact Along.throw _
    · exact Along.pure _
  | anchorNode => exact hok.lent (lent_anchorNode _ _ _ _ _ w)
  | genesisCheckpoint => exact hok.lent (lent_genesisCheckpoint _ _ _ w)
  | listen b =>
    refine hok.lent ?_
    show Lent w (after (listen b) w)
    unfold listen
    split
    · split
      · exact lent_makeWith _ _ _ w
      · exact lent_makeWith _ _ _ w
    · exact lent_makeWith _ _ _ w
  | connect | connectFd | connectByNodeId | startConnect | startConnectFd => exact hok.lent (lent_makeWith _ _ _ w)

theorem run_ok (ret : Nat → Ret) (as : List (Op ε)) : Ok (run ret as) :=
  List.foldlRecOn as (fun w a => a.run w) (start_ok ret) fun _ hok a _ => hok.op a

/-- After any operations, whatever the library returned: no call was handed a key that had been wiped, the key
of a closed object was wiped, once, and key memory that is not zero belongs to an open object, but for the memory
that a failed call wrote a key into, which nothing wipes. -/
theorem secrets_wiped (ret : Nat → Ret) (as : List (Op ε)) :
    (∀ cell, NoStale (Wipes cell) (Lends cell) (run ret as).log) ∧
      (∀ o ∈ (run ret as).objs.objs, (run ret as).log.countP (Wipes o.cell) = if o.closed then 1 else 0) ∧
      ∀ cell c, (run ret as).objs.cells[cell]? = some c →
        (c.priv = List.replicate privkeySize 0 ∨ Held (run ret as).objs cell ↔ ¬ Leaked cell (run ret as).log) := by
  have hok := run_ok ret as
  refine ⟨hok.stale, fun o hmem => ?_, fun cell c hc => ?_⟩
  · have hw := hok.wiped o hmem
    rw [freed_iff_count] at hw
    have hone := (hok.stale o.cell).count fun _ hc => hc.2
    by_cases hc : o.closed = true
    · rw [if_pos hc]
      have := hw.1 hc
      omega
    · rw [if_neg hc]
      have := mt hw.2 hc
      omega
  · rw [← hok.secret cell c hc, not_and_or, not_not, not_not]

/-- An identity signs and is closed, a loaded key has no name, and a keygen fails behind its write. -/
def spill : List (Op Unit) := [.generate, .sign 0 (.ok [1]), .close 0, .fromPem (.ok []), .blsGenerate true]

def spilled : Nat → Ret :=
  fun n => [⟨0, 0, List.replicate 96 7⟩, ⟨0, 0, []⟩, ⟨0, 0, []⟩, ⟨0, 0, List.replicate 64 7⟩, ⟨-1, 0, []⟩, ⟨0, 0, []⟩,
    ⟨-1, 0, List.replicate 32 7⟩].getD n ⟨0, 0, []⟩

theorem secrets_wiped_spilled :
    (run spilled spill).log.countP (Wipes 0) = 1 ∧
      (∀ c, (run spilled spill).objs.cells[1]? = some c →
        c.priv = List.replicate privkeySize 0 ∨ Held (run spilled spill).objs 1) ∧
      ∀ c, (run spilled spill).objs.cells[2]? = some c →
        ¬ (c.priv = List.replicate privkeySize 0 ∨ Held (run spilled spill).objs 2) := by
  obtain ⟨-, hcount, hsecret⟩ := secrets_wiped spilled spill
  have hlends : ∀ c ∈ (run spilled spill).log, 1 ∈ c.1.keys → c.2.rc < 0 → c.1.fn.lends = true := by decide
  have hleaked : Leaked 2 (run spilled spill).log :=
    ⟨(⟨.blsKeygen, [2], []⟩, ⟨-1, 0, List.replicate 32 7⟩), by decide, by decide, by decide, _, rfl, by decide⟩
  refine ⟨hcount ⟨.ed25519, 0, List.replicate 32 7, true⟩ (List.mem_singleton_self _), fun c hc => ?_,
    fun c hc h => (hsecret 2 c hc).1 h hleaked⟩
  rw [hsecret 1 c hc]
  rintro ⟨d, hd, hl⟩
  exact not_leaks_of_lends (hlends d hd hl.1 hl.2.1) hl

end Nwep.Identity
