/-
The account of every public operation: what it is handed it frees, drops, or gives to the wrapper it
returns.

`close` and `poll` move a handle, four methods and the openings make a wrapper of a new one, and all
others are idle.
-/
import Nwep.Native.Account

namespace Nwep.Native

open Lib

variable {ε : Type}

/-! ## What the methods make of a handle -/

section

variable {m : Method ε} {made : Kind} {k : Cls}

/-- A method whose call hands out the handle `o`, and that makes an object of it but for the codes in `p`. -/
theorem Method.keeps_of (o : Ret → Option Nat) (p : Ret → Prop) [DecidablePred p]
    (hh : ∀ h vals ret, (⟨m.fn, h, vals⟩ : Call).hands ret = (o ret).map (made, ·))
    (hd : ∀ h vals ret, (⟨m.fn, h, vals⟩ : Call).drops ret = if p ret then (o ret).map (made, ·) else none)
    (hr : ∀ ret, resultHandle (m.result ret) = if p ret then none else o ret) : m.Keeps made := by
  intro y h vals ret
  rw [tally_hands (hh h vals ret), hr]
  by_cases hp : p ret
  · rw [tally_loses ((hd h vals ret).trans (if_pos hp)), if_pos hp, gives_none, Nat.add_zero]
  · rw [tally_loses (k := made) (o := none) ((hd h vals ret).trans (if_neg hp)), if_neg hp, gives_none, Nat.zero_add]

/-- A checked handle. -/
def checkedOut (ret : Ret) : Option Nat := if 0 ≤ ret.rc then some ret.out else none

theorem handle_made (ret : Ret) : resultHandle (checked Native.made ret : Except (PyExc ε) Value) = checkedOut ret := by
  unfold checked checkCode checkedOut
  by_cases h : ret.rc < 0
  · rw [if_pos h, if_neg (by omega)]; rfl
  · rw [if_neg h, if_pos (by omega)]; rfl

theorem checkedOut_map (k : Kind) (ret : Ret) :
    (if 0 ≤ ret.rc then some (k, ret.out) else none) = (checkedOut ret).map (k, ·) := by
  unfold checkedOut
  split <;> rfl

theorem handle_checked {f : Ret → Value} (hf : ∀ ret, (f ret).handle = none) (ret : Ret) :
    resultHandle (checked f ret : Except (PyExc ε) Value) = none := by
  unfold checked checkCode
  by_cases h : ret.rc < 0
  · rw [if_pos h]; rfl
  · rw [if_neg h]; exact hf ret

theorem handle_unchecked {f : Ret → Value} (hf : ∀ ret, (f ret).handle = none) (ret : Ret) :
    resultHandle (unchecked f ret : Except (PyExc ε) Value) = none := hf ret

theorem handle_checkedEnum (name : String) (n : Nat) (ret : Ret) :
    resultHandle (checkedEnum name n ret : Except (PyExc ε) Value) = none := by
  unfold checkedEnum checkCode
  by_cases h : ret.rc < 0
  · rw [if_pos h]; rfl
  · rw [if_neg h]
    show resultHandle (if _ then _ else _) = none
    split <;> rfl

theorem handle_routed (used : Bool) (ret : Ret) : resultHandle (routed used ret : Except (PyExc ε) Value) = none := by
  unfold routed checkCode
  repeat' split
  all_goals rfl

theorem handle_ite {p : Prop} [Decidable p] {a b : Value} (ha : a.handle = none) (hb : b.handle = none) :
    (if p then a else b).handle = none := by
  by_cases h : p
  · rw [if_pos h]; exact ha
  · rw [if_neg h]; exact hb

theorem Public.bare (h : Public k (.method m)) (hi : m.fn.idle = true) (ret : Ret) :
    resultHandle (m.result ret) = none := by
  cases h
  case dhtLookupResult target =>
    show resultHandle (if _ then _ else if _ then _ else _) = none
    split
    · rfl
    · split <;> rfl
  all_goals first
    | (cases hi; done)
    | exact handle_checked (fun _ => rfl) ret
    | exact handle_unchecked (fun _ => rfl) ret
    | exact handle_checkedEnum _ _ ret
    | exact handle_routed _ ret
    | exact handle_unchecked (fun _ => handle_ite rfl rfl) ret

variable (method now request : Arg ε Int) (path body pubkey methodName : Arg ε Bytes)
  (headers : Arg ε (Option (List (Bytes × Bytes))))

theorem Client.send_keeps : (Client.send method path body headers).Keeps .message :=
  Method.keeps_of checkedOut (fun _ => False) (fun _ _ => checkedOut_map _) (fun _ _ _ => rfl) handle_made

theorem Stream.response_keeps (id : Int) : (Stream.response id : Method ε).Keeps .message :=
  Method.keeps_of checkedOut (fun _ => False) (fun _ _ => checkedOut_map _) (fun _ _ _ => rfl) handle_made

/-- Only the code 0 makes an object. -/
theorem handle_found (missed : Prop) [Decidable missed] (ret : Ret) :
    resultHandle (do
      if ret.rc = 0 then return Native.made ret
      else if missed then return .none
      else
        let _ ← checkCode ret.rc
        return .none : Except (PyExc ε) Value) = if ret.rc = 0 then some ret.out else none := by
  unfold checkCode
  by_cases h0 : ret.rc = 0
  · rw [if_pos h0, if_pos h0]; rfl
  rw [if_neg h0, if_neg h0]
  by_cases hm : missed
  · rw [if_pos hm]; rfl
  rw [if_neg hm]
  by_cases hn : ret.rc < 0
  · rw [if_pos hn]; rfl
  · rw [if_neg hn]; rfl

/-- Of a positive code it makes nothing, whatever it was handed. -/
theorem Method.keeps_found (hh : ∀ h vals ret, (⟨m.fn, h, vals⟩ : Call).hands ret = (checkedOut ret).map (made, ·))
    (hd : ∀ h vals ret, (⟨m.fn, h, vals⟩ : Call).drops ret = if 0 < ret.rc then some (made, ret.out) else none)
    (hr : ∀ ret, resultHandle (m.result ret) = if ret.rc = 0 then some ret.out else none) : m.Keeps made := by
  refine Method.keeps_of checkedOut (fun ret => 0 < ret.rc) hh (fun h vals ret => ?_) fun ret => ?_
  · rw [hd]
    by_cases hp : 0 < ret.rc
    · unfold checkedOut
      rw [if_pos hp, if_pos hp, if_pos (by omega)]; rfl
    · rw [if_neg hp, if_neg hp]
  · unfold checkedOut
    rw [hr]
    rcases Int.lt_trichotomy ret.rc 0 with h0 | h0 | h0
    · rw [if_neg (by omega), if_neg (by omega), if_neg (by omega)]
    · rw [if_pos h0, if_neg (by omega), if_pos (by omega)]
    · rw [if_neg (by omega), if_pos h0]

theorem Client.pollRequest_keeps : (Client.pollRequest request).Keeps .message :=
  Method.keeps_found (fun _ _ => checkedOut_map _) (fun _ _ _ => rfl) fun ret => handle_found (ret.rc = wouldBlock) ret

theorem Cache.getSigned_keeps : (Cache.getSigned methodName path pubkey now).Keeps .message :=
  Method.keeps_found (fun _ _ => checkedOut_map _) (fun _ _ _ => rfl)
    fun ret => handle_found (ret.rc = notFound ∨ ret.rc = cryptoVerify) ret

/-- A returned pointer, or `NULL`. -/
theorem Client.pollNotify_keeps : (Client.pollNotify : Method ε).Keeps .message := by
  refine Method.keeps_of (fun ret => if ret.rc = 0 then none else some ret.rc.toNat) (fun _ => False)
    (fun h vals ret => ?_) (fun _ _ _ => rfl) fun ret => ?_
  · show (if ret.rc = 0 then _ else _) = _
    split <;> rfl
  · show (if ret.rc = 0 then _ else _ : Value).handle = _
    split <;> rfl

/-- An opening makes its borrower of the handle it is given. -/
def Opening.cls : Opening ε → Cls
  | attach .. => .dht
  | openStream .. => .client
  | logServer _ => .logServer

theorem Opening.keeps (o : Opening ε) : o.method.Keeps o.cls.kind := by
  cases o with
  | attach bootstraps initialSeq =>
    exact Method.keeps_of checkedOut (fun _ => False) (fun _ _ => checkedOut_map _) (fun _ _ _ => rfl) handle_made
  | openStream method path headers => exact Method.keeps_idle rfl (handle_checked fun _ => rfl)
  | logServer keypair =>
    refine Method.keeps_of (fun ret => if ret.rc = 0 then none else some ret.out) (fun _ => False)
      (fun h vals ret => ?_) (fun _ _ _ => rfl) fun ret => ?_
    · show (if ret.rc = 0 then _ else _) = _
      split <;> rfl
    · show resultHandle (if ret.rc = 0 then _ else _) = _
      split <;> rfl

theorem Public.keeps (h : Public k (.method m)) : m.Keeps .message := by
  by_cases hi : m.fn.idle = true
  · exact Method.keeps_idle hi (h.bare hi)
  cases h
  case clientSend => exact Client.send_keeps _ _ _ _
  case clientPollNotify => exact Client.pollNotify_keeps
  case clientPollRequest => exact Client.pollRequest_keeps _
  case cacheGetSigned => exact Cache.getSigned_keeps _ _ _ _
  all_goals exact absurd rfl hi

theorem Public.repr_bare (h : Public k (.repr m)) (ret : Ret) : resultHandle (m.result ret) = none := by
  cases h
  · exact handle_unchecked (fun _ => handle_ite rfl rfl) ret
  all_goals exact handle_unchecked (fun _ => rfl) ret

end

/-! ## The other bodies -/

section

variable {w : Wrapper} {v : Heap} {own : Heap → Pointer → Nat} {made : Kind} {x : Prog ε Value}

theorem along_checkOpen (w : Wrapper) (message : String) : Along Idle (checkOpen w message : Prog ε Unit) := by
  refine Along.get.bind fun v => ?_
  by_cases h : isClosed w v = true
  · rw [if_pos h]; exact Along.throw _
  · rw [if_neg h]; exact Along.pure _

theorem along_call {c : Call} (hi : c.fn.idle = true) : Along Idle (call c : Prog ε Ret) := by
  refine fun v => ⟨⟨_, rfl, fun d hd => ?_⟩, fun _ => rfl⟩
  rw [List.mem_singleton.1 hd]; exact hi

theorem along_setObj {f : Obj → Obj} (w : Wrapper) (hf : ∀ o, (f o).closed = o.closed) :
    Along Idle (setObj w f : Prog ε Unit) := by
  refine Along.modify fun v => ⟨⟨[], (List.append_nil _).symm, by rintro c ⟨⟩⟩, fun u => ?_⟩
  show (Function.update v.objs w.id (f (v.objs w.id)) u).closed = _
  by_cases hu : u = w.id
  · rw [hu, Function.update_self]; exact hf _
  · rw [Function.update_of_ne hu]

theorem along_method {m : Method ε} (hi : m.fn.idle = true) (w : Wrapper) : Along Idle (m.run w) := by
  refine Along.bind ?_ fun _ => (along_raise _).bind fun _ => (along_call hi).bind fun _ => along_raise _
  unfold Method.entry
  cases m.guard with
  | none => exact Along.pure _
  | some message => exact along_checkOpen w message

theorem yields_raise {r : Except (PyExc ε) Value} (h : resultHandle r = none) :
    NoObject (raise r : Prog ε Value) := by
  cases r with
  | ok a => exact Yields.pure h
  | error e => exact Yields.throw e

theorem yields_method {m : Method ε} (h : ∀ ret, resultHandle (m.result ret) = none) (w : Wrapper) :
    NoObject (m.run w) :=
  Yields.bind fun _ => Yields.bind fun _ => Yields.bind fun ret => yields_raise (h ret)

theorem along_headers (w : Wrapper) : Along Idle (Response.headers w : Prog ε Value) :=
  (along_checkOpen w _).bind fun _ => (along_setObj w (by intro o; rfl)).bind fun _ => Along.pure _

theorem along_next (w : Wrapper) (i : Nat) (decode : Bytes → Arg ε Bytes) : Along Idle (Response.next w i decode) := by
  refine Along.get.bind fun v => ?_
  split
  · refine (along_call rfl).bind fun ret => ?_
    split
    · split
      · exact (along_setObj w (by intro o; rfl)).bind fun _ => Along.pure _
      · exact (along_setObj w (by intro o; rfl)).bind fun _ => Along.throw _
    · exact (along_setObj w (by intro o; rfl)).bind fun _ => Along.pure _
  · exact Along.pure _

theorem along_setCache (w : Wrapper) (cache : Option (Arg ε Nat)) : Along Idle (Client.setCache w cache) :=
  (along_raise _).bind fun _ => (along_call rfl).bind fun _ => (along_check _).bind fun _ =>
    (along_setObj w (by intro o; rfl)).bind fun _ => Along.pure _

theorem along_setCallback {fn : Fn} (hi : fn.idle = true) (w : Wrapper) (hook : Option Nat) :
    Along Idle (setCallback w fn hook : Prog ε Value) := by
  cases hook with
  | none => exact (along_call hi).bind fun _ => (along_setObj w (by intro o; rfl)).bind fun _ => Along.pure _
  | some hook => exact (along_setObj w (by intro o; rfl)).bind fun _ => (along_call hi).bind fun _ => Along.pure _

theorem along_save (w : Wrapper) : Along Idle (TrustStore.save w : Prog ε Value) :=
  (along_checkOpen w _).bind fun _ => (along_call rfl).bind fun _ => (along_check _).bind fun _ =>
    (along_call rfl).bind fun _ => (along_check _).bind fun _ => Along.pure _

theorem along_anchorDispatch (w : Wrapper) (server : Nat) (conn : Arg ε Int) (anchorIds : List (Arg ε NodeId))
    (msg buf : Nat) (now : Arg ε Int) (used : Bool) :
    Along Idle (AnchorNode.dispatch w server conn anchorIds msg buf now used) :=
  (along_arg _).bind fun _ => (along_raise _).bind fun _ => (along_call rfl).bind fun _ => (along_check _).bind fun _ =>
    (along_raise _).bind fun _ => (along_call rfl).bind fun _ => along_raise _

theorem yields_headers (w : Wrapper) : NoObject (Response.headers w : Prog ε Value) :=
  Yields.bind fun _ => Yields.bind fun _ => Yields.pure rfl

theorem yields_next (w : Wrapper) (i : Nat) (decode : Bytes → Arg ε Bytes) : NoObject (Response.next w i decode) := by
  refine Yields.bind fun v => ?_
  split
  · refine Yields.bind fun ret => ?_
    split
    · split
      · exact Yields.bind fun _ => Yields.pure rfl
      · exact Yields.bind fun _ => Yields.throw _
    · exact Yields.bind fun _ => Yields.pure rfl
  · exact Yields.pure rfl

theorem yields_setCallback (w : Wrapper) (fn : Fn) (hook : Option Nat) :
    NoObject (setCallback w fn hook : Prog ε Value) := by
  cases hook with
  | none => exact Yields.bind fun _ => Yields.bind fun _ => Yields.pure rfl
  | some hook => exact Yields.bind fun _ => Yields.bind fun _ => Yields.pure rfl

theorem yields_setCache (w : Wrapper) (cache : Option (Arg ε Nat)) :
    NoObject (Client.setCache w cache) :=
  Yields.bind fun _ => Yields.bind fun _ => Yields.bind fun _ => Yields.bind fun _ => Yields.pure rfl

theorem yields_save (w : Wrapper) : NoObject (TrustStore.save w : Prog ε Value) :=
  Yields.bind fun _ => Yields.bind fun _ => Yields.bind fun _ => Yields.bind fun _ => Yields.bind fun _ =>
    Yields.pure rfl

theorem yields_anchorDispatch (w : Wrapper) (server : Nat) (conn : Arg ε Int) (anchorIds : List (Arg ε NodeId))
    (msg buf : Nat) (now : Arg ε Int) (used : Bool) :
    NoObject (AnchorNode.dispatch w server conn anchorIds msg buf now used) := by
  exact Yields.bind fun _ => Yields.bind fun _ => Yields.bind fun _ => Yields.bind fun _ => Yields.bind fun _ =>
    Yields.bind fun ret => yields_raise (handle_routed used ret)

/-- A body of idle calls that returns no object. -/
theorem balanced_idle {k : Kind} (ha : Along Idle x) (hy : NoObject x) (v : Heap) :
    Balanced w (owned k w) made x v fun _ => False :=
  Balanced.of_idle (ha v) (returned_none hy v) (owned_congr (ha v).flags) fun _ => id

theorem owned_closed {k : Kind} (h : isClosed w v = true) (y : Pointer) : owned k w v y = 0 := by
  refine tally_false ?_
  rintro ⟨-, -, ho⟩
  rw [h] at ho; cases ho

theorem owned_open {k : Kind} (h : isClosed w v = false) (y : Pointer) :
    owned k w v y = tally (k = y.kind ∧ w.handle = y.addr) :=
  tally_congr ⟨fun ho => ⟨ho.1, ho.2.1⟩, fun ho => ⟨ho.1, ho.2, h⟩⟩

/-- A closed object stays closed, and owns nothing more. -/
theorem owned_mono {k : Kind} {v' : Heap} {y : Pointer} (hs : isClosed w v = true → isClosed w v' = true)
    (h : owned k w v y = 0) : owned k w v' y = 0 := by
  refine tally_false fun ⟨hk, ha, ho⟩ => ?_
  cases hc : isClosed w v with
  | true => rw [hs hc] at ho; cases ho
  | false =>
    rw [owned_open hc, tally_congr (and_iff_right hk), tally_congr (iff_true_intro ha)] at h
    exact absurd h (by decide)

theorem Kind.free_inj {k k' : Kind} (h : k.free = k'.free) : k = k' := by
  rw [← k.free_kind, h, k'.free_kind]

theorem Kind.free_idle (k : Kind) (y : Pointer) (c : Call × Ret) (h : c.1.fn = k.free) : ¬ Hands y c ∧ ¬ Loses y c := by
  unfold Hands Call.hands Loses Call.drops
  rw [h]
  cases k <;> exact ⟨by rintro ⟨⟩, by rintro ⟨⟩⟩

/-- A change of the wrapper's own record. -/
theorem withObj_elsewhere (f : Obj → Obj) (u : Nat) (hu : u ≠ w.id) : (withObj w f v).objs u = v.objs u :=
  Function.update_of_ne hu ..

theorem yields_close (k : Kind) (w : Wrapper) : NoObject (closeWith w k : Prog ε Value) := by
  refine Yields.bind fun v => ?_
  by_cases hc : isClosed w v = true
  · rw [if_pos hc]; exact Yields.pure rfl
  · rw [if_neg hc]; exact Yields.bind fun _ => Yields.bind fun _ => Yields.pure rfl

/-- `close` frees what the wrapper owned. -/
theorem close_balanced (k : Kind) (w : Wrapper) (v : Heap) :
    Balanced w (owned k w) made (closeWith w k : Prog ε Value) v fun _ => False := by
  by_cases hc : isClosed w v = true
  · have hx := close_closed (ε := ε) hc k
    exact Balanced.unchanged (after_ok hx) (returned_ok hx) fun _ => id
  have ho := not_closed hc
  have hx := close_open (ε := ε) ho k
  have hret := returned_none (yields_close (ε := ε) k w) v
  have hclosed : isClosed w (after (closeWith w k : Prog ε Value) v) = true := by
    rw [after_ok hx]; exact isClosed_withObj _ _
  refine Balanced.one (c := (⟨k.free, w.handle, []⟩, v.ret v.log.length)) (by rw [after_ok hx]; rfl) (fun y => ?_)
    (fun y => iff_of_false id (k.free_idle y _ rfl).2) (fun u hu => ?_) fun _ => hclosed
  · obtain ⟨hh, hl⟩ := k.free_idle y (⟨k.free, w.handle, []⟩, v.ret v.log.length) rfl
    rw [tally_false hh, tally_false hl, hret, gives_none, owned_open ho, owned_closed hclosed, Nat.zero_add]
    refine tally_congr ⟨fun ⟨hk, ha⟩ => ⟨ha, .inl (by rw [hk])⟩, ?_⟩
    rintro ⟨ha, hf | ⟨-, hf, -⟩⟩
    · exact ⟨Kind.free_inj hf, ha⟩
    · exact absurd hf (by cases k <;> rintro ⟨⟩)
  · rw [after_ok hx]
    exact congrArg Obj.closed (withObj_elsewhere _ u hu)

/-- However often it was called before, `close` leaves the wrapper closed. -/
theorem isClosed_close (k : Kind) (w : Wrapper) (v : Heap) :
    isClosed w (after (closeWith w k : Prog ε Value) v) = true := by
  by_cases hc : isClosed w v = true
  · rw [after_ok (close_closed hc k)]; exact hc
  · rw [after_ok (close_open (not_closed hc) k)]; exact isClosed_withObj _ _

/-- The call of a poll. -/
theorem poll_call (w : Wrapper) (ret : Ret) (y : Pointer) :
    ¬ Hands y (⟨.clientConnectPoll, w.handle, []⟩, ret) ∧
    (Frees y.kind y.addr (⟨.clientConnectPoll, w.handle, []⟩, ret) ↔
      ret.rc < 0 ∧ .client = y.kind ∧ w.handle = y.addr) ∧
    (Loses y (⟨.clientConnectPoll, w.handle, []⟩, ret) ↔ 1 < ret.rc ∧ .client = y.kind ∧ w.handle = y.addr) := by
  refine ⟨by rintro ⟨⟩, ⟨?_, ?_⟩, ?_⟩
  · rintro ⟨ha, hf | ⟨hk, -, hn⟩⟩
    · exact absurd hf (by cases y.kind <;> rintro ⟨⟩)
    · exact ⟨hn, hk.symm, ha⟩
  · rintro ⟨hn, hk, ha⟩
    exact ⟨ha, .inr ⟨hk.symm, rfl, hn⟩⟩
  · show (if 1 < ret.rc then _ else _) = _ ↔ _
    by_cases h1 : 1 < ret.rc
    · rw [if_pos h1, and_iff_right h1, Option.some_inj, Prod.mk.injEq]
    · rw [if_neg h1]
      exact iff_of_false (by rintro ⟨⟩) fun h => h1 h.1

/-- What is left to check of a poll that called the library: where the code leaves the handle. -/
theorem Balanced.poll {ret : Ret} {v' : Heap} {r : Option Nat} (ho : isClosed w v = false)
    (hret : v.ret v.log.length = ret)
    (ha : after (Connecting.poll w : Prog ε Value) v = v') (hr : returned (Connecting.poll w : Prog ε Value) v = r)
    (hv : v' = polled w v ∨ v' = logged w .clientConnectPoll [] v)
    (hy : ∀ y : Pointer, tally (.client = y.kind ∧ w.handle = y.addr) =
      tally (ret.rc < 0 ∧ .client = y.kind ∧ w.handle = y.addr) +
      tally (1 < ret.rc ∧ .client = y.kind ∧ w.handle = y.addr) +
        owned .client w v' y + gives .client r y) :
    Balanced w (owned .client w) .client (Connecting.poll w : Prog ε Value) v fun y =>
      isClosed w v = false ∧ Loses y (⟨.clientConnectPoll, w.handle, []⟩, ret) := by
  subst ha hr
  refine Balanced.one ?_ (fun y => ?_) (fun y => and_iff_right ho) (fun u hu => ?_) fun h => ?_
  · rw [← hret]
    rcases hv with hv | hv
    · rw [hv]; rfl
    · rw [hv]; rfl
  · obtain ⟨hh, hf, hl⟩ := poll_call w ret y
    rw [tally_false hh, tally_congr hf, tally_congr hl, owned_open ho, Nat.zero_add]
    exact hy y
  · rcases hv with hv | hv
    · rw [hv]; exact congrArg Obj.closed (withObj_elsewhere _ u hu)
    · rw [hv]; rfl
  · rw [ho] at h; cases h

/-- `poll`: the handle goes to the new `Client` for 1, was freed below 0, and is lost above 1. -/
theorem poll_balanced (w : Wrapper) (v : Heap) :
    Balanced w (owned .client w) .client (Connecting.poll w : Prog ε Value) v fun y =>
      isClosed w v = false ∧ Loses y (⟨.clientConnectPoll, w.handle, []⟩, v.ret v.log.length) := by
  by_cases hc : isClosed w v = true
  · have hx : (Connecting.poll w : Prog ε Value) v = .error _ v :=
      bind_of_error (checkOpen_closed hc Connecting.alreadyCompleted) _
    refine Balanced.unchanged (after_error hx) (returned_error hx) fun y hd => ?_
    rw [hc] at hd; cases hd.1
  have ho := not_closed hc
  have hclosed : ∀ y, owned .client w (polled w v) y = 0 := owned_closed (isClosed_withObj _ _)
  generalize hret : v.ret v.log.length = ret
  rcases poll_cases (ε := ε) ho hret with ⟨hrc, h⟩ | ⟨hrc, h⟩ | ⟨hrc, h⟩ | ⟨hrc, e, h⟩
  · -- 1: the new Client has the handle
    have hn : ¬ ret.rc < 0 := by omega
    have hp : ¬ 1 < ret.rc := by omega
    refine Balanced.poll (r := some w.handle) ho hret (after_ok h) (returned_ok h) (.inl rfl) fun y => ?_
    have hg : tally (.client = y.kind ∧ w.handle = y.addr) = gives .client (some w.handle) y :=
      tally_congr (and_congr_right fun _ => Option.some_inj.symm)
    rw [tally_and_of_not hn, tally_and_of_not hp, hclosed y]
    omega
  · -- 0: the Connecting keeps it
    have hn : ¬ ret.rc < 0 := by omega
    have hp : ¬ 1 < ret.rc := by omega
    refine Balanced.poll (r := none) ho hret (after_ok h) (returned_ok h) (.inr rfl) fun y => ?_
    have hg : owned .client w (logged w .clientConnectPoll [] v) y = _ := owned_open ho y
    rw [tally_and_of_not hn, tally_and_of_not hp, gives_none]
    omega
  · -- no case for the code, and nobody has it
    have hn : ¬ ret.rc < 0 := by omega
    refine Balanced.poll (r := none) ho hret (after_ok h) (returned_ok h) (.inl rfl) fun y => ?_
    rw [tally_and_of_not hn, tally_and_of hrc, hclosed y, gives_none]
    omega
  · -- the library freed it
    have hp : ¬ 1 < ret.rc := by omega
    refine Balanced.poll (r := none) ho hret (after_error h) (returned_error h) (.inl rfl) fun y => ?_
    rw [tally_and_of hrc, tally_and_of_not hp, hclosed y, gives_none]
    omega

/-- The class of the object an operation returns, if it returns one. -/
def Body.makes : Body ε → Cls
  | poll => .client
  | _ => .response

/-- The operation calls the library with the handle, and its method has no case for the code. -/
def Body.Drops (b : Body ε) (k : Cls) (w : Wrapper) (v : Heap) (y : Pointer) : Prop :=
  b.Acts w v ∧ ∃ fn ∈ b.fns k, Loses y (⟨fn, w.handle, []⟩, v.ret v.log.length)

theorem Balanced.congr {drops drops' : Pointer → Prop} (h : Balanced w own made x v drops)
    (hd : ∀ y, drops' y ↔ drops y) :
    Balanced w own made x v drops' :=
  ⟨h.sheet, fun y => by rw [h.loses, hd], h.elsewhere, h.stays⟩

theorem along_repr {k : Cls} {m : Method ε} (h : Public k (.repr m)) (w : Wrapper) : Along Idle (reprWith w m) := by
  have hi : m.fn.idle = true := by cases h <;> rfl
  refine Along.get.bind fun v => ?_
  by_cases hc : isClosed w v = true
  · rw [if_pos hc]; exact Along.pure _
  · rw [if_neg hc]; exact along_method hi w

theorem yields_repr {k : Cls} {m : Method ε} (h : Public k (.repr m)) (w : Wrapper) :
    NoObject (reprWith w m) := by
  refine Yields.bind fun v => ?_
  by_cases hc : isClosed w v = true
  · rw [if_pos hc]; exact Yields.pure rfl
  · rw [if_neg hc]; exact yields_method h.repr_bare w

/-- The account of every public operation. -/
theorem Public.balanced {k : Cls} {b : Body ε} (h : Public k b) (w : Wrapper) (v : Heap) :
    Balanced w (owned k.kind w) b.makes.kind (b.run k w) v (b.Drops k w v) := by
  have hidle : (∀ fn ∈ b.fns k, fn.idle = true) → ∀ y, b.Drops k w v y ↔ False := by
    intro hi y
    refine iff_of_false ?_ id
    rintro ⟨-, fn, hf, hl⟩
    exact Fn.idle_not_loses (c := (⟨fn, w.handle, []⟩, _)) (hi fn hf) hl
  have hone : ∀ {fn : Fn}, fn.idle = true → ∀ f ∈ [fn], f.idle = true := by
    intro fn hi f hf
    rw [List.mem_singleton.1 hf]; exact hi
  cases b with
  | method m =>
    refine (Method.balanced h.plain h.keeps w v fun v' => owned_congr).congr fun y => ?_
    unfold Body.Drops Body.fns
    simp only [List.mem_singleton, exists_eq_left]
    exact Iff.rfl
  | repr m =>
    refine (balanced_idle (along_repr h w) (yields_repr h w) v).congr (hidle (hone ?_))
    cases h <;> rfl
  | headers => cases h; exact (balanced_idle (along_headers w) (yields_headers w) v).congr (hidle (by rintro fn ⟨⟩))
  | next i decode =>
    cases h
    exact (balanced_idle (along_next w i decode) (yields_next w i decode) v).congr (hidle (hone rfl))
  | setCache cache =>
    cases h
    exact (balanced_idle (along_setCache w cache) (yields_setCache w cache) v).congr (hidle (hone rfl))
  | onRequestDone hook =>
    cases h
    exact (balanced_idle (along_setCallback rfl w hook) (yields_setCallback w _ hook) v).congr (hidle (hone rfl))
  | onAppend hook =>
    cases h
    exact (balanced_idle (along_setCallback rfl w hook) (yields_setCallback w _ hook) v).congr (hidle (hone rfl))
  | poll =>
    cases h
    refine (poll_balanced w v).congr fun y => ?_
    unfold Body.Drops Body.fns
    simp only [List.mem_singleton, exists_eq_left]
    exact and_congr_left fun _ => ⟨fun ha => ha.1 rfl, fun hc => ⟨fun _ => hc, trivial⟩⟩
  | save => cases h; exact (balanced_idle (along_save w) (yields_save w) v).congr (hidle (hone rfl))
  | anchorDispatch server conn anchorIds msg buf now used =>
    cases h
    refine (balanced_idle (along_anchorDispatch w server conn anchorIds msg buf now used)
      (yields_anchorDispatch w server conn anchorIds msg buf now used) v).congr (hidle ?_)
    intro fn hf
    rcases List.mem_cons.1 hf with rfl | hf
    · rfl
    · exact hone rfl fn hf
  | close =>
    refine (close_balanced k.kind w v).congr fun y => iff_of_false ?_ id
    rintro ⟨-, fn, hf, hl⟩
    exact (k.kind.free_idle y (⟨fn, w.handle, []⟩, _) (List.mem_singleton.1 hf)).2 hl

/-- An opening borrows from an owner, whose account it leaves. -/
theorem Opening.balanced (o : Opening ε) (w : Wrapper) (v : Heap) :
    Balanced w (owned o.pair.lender.kind w) o.cls.kind (o.method.run w) v fun _ => False := by
  refine (Method.balanced (Fn.through_plain o.through) o.keeps w v fun v' => owned_congr).congr fun y => ?_
  refine iff_of_false id ?_
  rintro ⟨-, hl⟩
  cases o <;> cases hl

theorem yields_streamClose (i : Int) (w client : Wrapper) : NoObject (Stream.close i w client : Prog ε Value) := by
  refine Yields.bind fun u => ?_
  split
  · exact Yields.bind fun _ => Yields.bind fun _ => Yields.pure rfl
  · exact Yields.bind fun _ => Yields.pure rfl

/-- `Stream.close` makes at most an idle call, and sets the stream's flag. -/
theorem streamClose_calls (i : Int) (w client : Wrapper) (v : Heap) :
    Calls (fun c => c.1.fn.idle = true) v (after (Stream.close i w client : Prog ε Value) v) ∧
      (after (Stream.close i w client : Prog ε Value) v).objs =
        (withObj w (fun o => { o with closed := true }) v).objs := by
  unfold Stream.close
  rw [after_bind_ok (get_ok v)]
  split
  · rw [after_bind_ok (callOn_ok _ _ _), after_bind_ok (setObj_ok _ _), after_pure]
    refine ⟨⟨_, rfl, fun c hc => ?_⟩, rfl⟩
    rw [List.mem_singleton.1 hc]; rfl
  · rw [after_bind_ok (setObj_ok _ _), after_pure]
    exact ⟨⟨[], (List.append_nil _).symm, by rintro c ⟨⟩⟩, rfl⟩

/-- A Stream owns no handle. -/
theorem StreamOp.balanced (o : StreamOp ε) (i : Int) (w client : Wrapper) (v : Heap) :
    Balanced w (fun _ _ => 0) .message (o.run i w client) v fun _ => False := by
  unfold StreamOp.run
  cases ho : o.method i with
  | some m =>
    have hp := Fn.through_plain (StreamOp.through ho).1
    have hm : m.Keeps .message ∧ ∀ y h vals ret, ¬ Loses y (⟨m.fn, h, vals⟩, ret) := by
      cases o <;> cases ho
      · exact ⟨Stream.response_keeps i, by rintro _ _ _ _ ⟨⟩⟩
      · exact ⟨Method.keeps_idle rfl (handle_checked fun _ => rfl), by rintro _ _ _ _ ⟨⟩⟩
      · exact ⟨Method.keeps_idle rfl (handle_checked fun _ => rfl), by rintro _ _ _ _ ⟨⟩⟩
    exact (Method.balanced hp hm.1 w v fun _ _ _ => rfl).congr fun y => iff_of_false id fun h => hm.2 _ _ _ _ h.2
  | none =>
    obtain ⟨hcalls, hobjs⟩ := streamClose_calls (ε := ε) i w client v
    refine Balanced.of_calls hcalls (returned_none (yields_streamClose i w client) v) (fun _ => rfl) (fun u hu => ?_)
      (fun _ => ?_) fun _ => id
    · rw [hobjs, withObj_elsewhere _ u hu]
    · unfold isClosed
      rw [hobjs]
      exact isClosed_withObj (w := w) (fun o => { o with closed := true }) v

end

end Nwep.Native
