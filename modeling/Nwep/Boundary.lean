/-
What the wrappers share at the boundary to the C library: the exceptions they raise, the return
code check of `errors`, the status tokens of `wire`, the header arrays of `message`, and the objects
of a fixed size.

A parameter arrives as the outcome of the conversions a call makes of it (`encode`, `len`, the
conversion to the C type): its value on the C side, or the exception they raised.
-/
import Nwep.Lib.Foreign

namespace Nwep

open Lib

abbrev Bytes := List UInt8

/-- The UTF-8 text of a literal. -/
def utf8 (s : String) : Bytes := s.toUTF8.toList

/-- What the wrappers raise: the exception of a return code, one of their own, or one that the
conversion of a parameter raised. -/
inductive PyExc (ε : Type) where
  | nwep (code : Int)
  | configInvalid (message : String)
  | internalError (message : String)
  | runtimeError (message : String)
  | valueError (message : String)
  | raised (e : ε)
deriving Repr, DecidableEq

/-- A parameter as the call converts it. -/
abbrev Arg (ε α : Type) := Except ε α

/-- What a library call hands back: its return value (a code or a count; for a pointer, 0 is
`NULL`), the number it wrote through an out parameter (a length, an id, a handle), and the bytes. -/
structure Ret where
  rc : Int
  out : Nat := 0
  data : Bytes := []
deriving Repr, DecidableEq

/-- A wrapper program: calls `κ` into the library, objects `σ`. -/
abbrev Py (ε κ σ : Type) := EStateM (PyExc ε) (World κ Ret σ)

section

variable {ε κ σ α : Type}

/-- Go on with a value, or raise. -/
def raise (x : Except (PyExc ε) α) : Py ε κ σ α :=
  match x with
  | .ok a => pure a
  | .error e => throw e

theorem raise_ok (a : α) (w : World κ Ret σ) : (raise (.ok a) : Py ε κ σ α) w = .ok a w := rfl

theorem raise_error (e : PyExc ε) (w : World κ Ret σ) : (raise (.error e) : Py ε κ σ α) w = .error e w := rfl

/-- Raising or not, the objects and the log stay. -/
theorem after_raise (x : Except (PyExc ε) α) (w : World κ Ret σ) : after (raise x : Py ε κ σ α) w = w := by
  cases x <;> rfl

/-- Convert a parameter. -/
def arg (a : Arg ε α) : Py ε κ σ α := raise (a.mapError .raised)

theorem arg_ok (a : α) (w : World κ Ret σ) : (arg (.ok a) : Py ε κ σ α) w = .ok a w := rfl

theorem arg_error (e : ε) (w : World κ Ret σ) : (arg (.error e) : Py ε κ σ α) w = .error (.raised e) w := rfl

/-- Converting the items of a list: all of them, or the first that raises. -/
theorem mapM_arg (w : World κ Ret σ) : ∀ l : List (Arg ε α),
    (∃ as, (l.mapM arg : Py ε κ σ (List α)) w = .ok as w) ∨
      ∃ e, (l.mapM arg : Py ε κ σ (List α)) w = .error (.raised e) w
  | [] => .inl ⟨[], by rw [List.mapM_nil]; rfl⟩
  | .error e :: l => .inr ⟨e, by rw [List.mapM_cons, bind_of_error (arg_error e w)]⟩
  | .ok a :: l => by
    rw [List.mapM_cons, bind_of_ok (arg_ok a w)]
    rcases mapM_arg w l with ⟨as, h⟩ | ⟨e, h⟩
    · rw [bind_of_ok h]; exact .inl ⟨_, rfl⟩
    · rw [bind_of_error h]; exact .inr ⟨_, rfl⟩

/-- A loop of conversions is the conversion of the list. -/
theorem mapM_eq_arg {β : Type} {f : β → Arg ε α} {g : β → Py ε κ σ α} (h : ∀ b w, g b w = arg (f b) w)
    (w : World κ Ret σ) : ∀ l : List β, l.mapM g w = arg (l.mapM f) w
  | [] => by rw [List.mapM_nil, List.mapM_nil]; rfl
  | b :: l => by
    rw [List.mapM_cons, List.mapM_cons]
    have hb := h b w
    have hl := mapM_eq_arg h w l
    cases hf : f b with
    | error e =>
      rw [hf] at hb
      rw [bind_of_error (hb.trans (arg_error e w))]; rfl
    | ok a =>
      rw [hf] at hb
      rw [bind_of_ok (hb.trans (arg_ok a w))]
      cases hm : l.mapM f with
      | error e =>
        rw [hm] at hl
        rw [bind_of_error (hl.trans (arg_error e w))]; rfl
      | ok as =>
        rw [hm] at hl
        rw [bind_of_ok (hl.trans (arg_ok as w))]; rfl

/-- `errors.check`: a negative code raises, any other is returned unchanged. -/
def checkCode (code : Int) : Except (PyExc ε) Int :=
  if code < 0 then .error (.nwep code) else .ok code

def check (code : Int) : Py ε κ σ Int := raise (checkCode code)

theorem check_cases (code : Int) (w : World κ Ret σ) :
    (0 ≤ code ∧ (check code : Py ε κ σ Int) w = .ok code w) ∨
    (code < 0 ∧ (check code : Py ε κ σ Int) w = .error (.nwep code) w) := by
  unfold check checkCode
  by_cases h : code < 0
  · rw [if_pos h]; exact .inr ⟨h, rfl⟩
  · rw [if_neg h]; exact .inl ⟨by omega, rfl⟩

/-- `check(lib.f(…))`, and what is made of the reply. -/
def checkedCall (c : κ) (result : Ret → α) : Py ε κ σ α := do
  let ret ← call c
  let _ ← check ret.rc
  return result ret

theorem checkedCall_ok (c : κ) (result : Ret → α) {w : World κ Ret σ} (h : 0 ≤ (w.ret w.log.length).rc) :
    (checkedCall c result : Py ε κ σ α) w = .ok (result (w.ret w.log.length)) (w.called c) := by
  unfold checkedCall
  rw [bind_of_ok (call_ok c w)]
  rcases check_cases (ε := ε) (w.ret w.log.length).rc (w.called c) with ⟨-, hc⟩ | ⟨hn, -⟩
  · rw [bind_of_ok hc]; rfl
  · omega

theorem after_checkedCall (c : κ) (result : Ret → α) (w : World κ Ret σ) :
    after (checkedCall c result : Py ε κ σ α) w = w.called c := by
  unfold checkedCall
  rw [after_bind_ok (call_ok c w)]
  rcases check_cases (ε := ε) (w.ret w.log.length).rc (w.called c) with ⟨-, hc⟩ | ⟨-, hc⟩
  · rw [after_bind_ok hc]; rfl
  · rw [after_bind_error hc]

/-- `bytes(ffi.buffer(out, outlen[0]))`. -/
def written (ret : Ret) : Bytes := ret.data.take ret.out

section OneCall

variable {β : Type} {P : κ → Prop} {w : World κ Ret σ}

theorem oneCall_raise {x : Except (PyExc ε) α} {f : α → Py ε κ σ β} (h : ∀ a, x = .ok a → OneCall P (f a) w) :
    OneCall P (raise x >>= f) w := by
  cases x with
  | ok a => exact OneCall.bind_of_ok rfl (h a rfl)
  | error e => exact OneCall.bind_of_error rfl

theorem oneCall_arg {a : Arg ε α} {f : α → Py ε κ σ β} (h : ∀ b, OneCall P (f b) w) : OneCall P (arg a >>= f) w :=
  oneCall_raise fun b _ => h b

theorem oneCall_checkedCall {c : κ} {result : Ret → α} (h : P c) :
    OneCall P (checkedCall c result : Py ε κ σ α) w := OneCall.of_after (after_checkedCall c result w) h

end OneCall

section Along

variable {R : World κ Ret σ → World κ Ret σ → Prop} [Std.Refl R]

theorem along_raise (x : Except (PyExc ε) α) : Along R (raise x : Py ε κ σ α) := by
  cases x with
  | ok a => exact Along.pure a
  | error e => exact Along.throw e

theorem along_arg (a : Arg ε α) : Along R (arg a : Py ε κ σ α) := along_raise _

theorem along_check (code : Int) : Along R (check code : Py ε κ σ Int) := along_raise _

end Along

/-! ## Header arrays -/

/-- The headers a caller passes, empty for `None`; listing them may raise, and so may encoding a
name or a value. -/
abbrev HeadersArg (ε : Type) := Arg ε (List (Arg ε Bytes × Arg ε Bytes))

/-- `message.encode_headers`: `NULL` without headers, else the array of encoded pairs. -/
def encodeHeaders (headers : HeadersArg ε) : Py ε κ σ (Option (List (Bytes × Bytes))) := do
  let items ← arg headers
  if items.isEmpty then
    return none
  else
    let array ← items.mapM fun (name, value) => do
      let cname ← arg name
      let cvalue ← arg value
      return (cname, cvalue)
    return some array

theorem along_encodeHeaders {R : World κ Ret σ → World κ Ret σ → Prop} [Std.Refl R] [IsTrans _ R]
    (headers : HeadersArg ε) : Along R (encodeHeaders headers : Py ε κ σ _) := by
  refine (along_arg headers).bind fun items => ?_
  by_cases h : items.isEmpty = true
  · rw [if_pos h]; exact Along.pure _
  · rw [if_neg h]
    refine (Along.mapM (fun p => ?_) items).bind fun _ => Along.pure _
    exact (along_arg p.1).bind fun _ => (along_arg p.2).bind fun _ => Along.pure _

end

/-! ## Buffers and objects of a fixed size -/

/-- The content of a new buffer of `size` bytes that the library wrote `data` to. -/
def buffer (size : Nat) (data : Bytes) : Bytes := (data ++ List.replicate size 0).take size

theorem length_buffer (size : Nat) (data : Bytes) : (buffer size data).length = size := by
  unfold buffer
  rw [List.length_take, List.length_append, List.length_replicate]
  omega

/-- The bytes of an object of a fixed size. -/
structure Fixed (n : Nat) where
  bytes : Bytes
  size : bytes.length = n
deriving DecidableEq

def nodeidSize : Nat := 32
def pubkeySize : Nat := 32
def privkeySize : Nat := 32
def addressSize : Nat := 32

/-- `NodeId`: 32 bytes. -/
abbrev NodeId := Fixed nodeidSize

/-- `NodeId.__init__`. -/
def NodeId.init {ε : Type} (raw : Bytes) : Except (PyExc ε) NodeId :=
  if h : raw.length = nodeidSize then .ok ⟨raw, h⟩
  else .error (.valueError ("node_id must be " ++ toString nodeidSize ++ " bytes, got " ++ toString raw.length))

/-- The `nwep_node_id` that the library wrote. -/
def NodeId.ofBuffer (data : Bytes) : NodeId := ⟨buffer nodeidSize data, length_buffer ..⟩

/-- The `nwep_address` of an `Address`. -/
abbrev Address := Fixed addressSize

/-! ## Status tokens -/

/-- `wire.Status`. -/
inductive Status where
  | ok | created | accepted | noContent | partialContent | moved | notModified | badRequest | unauthorized
  | forbidden | notFound | notAllowed | conflict | gone | tooLarge | preconditionFailed
  | rangeNotSatisfiable | rateLimited | error | unavailable | timeout | notImplemented
deriving Repr, DecidableEq

def Status.code : Status → Nat
  | ok => 0
  | created => 1
  | accepted => 2
  | noContent => 3
  | partialContent => 4
  | moved => 5
  | notModified => 6
  | badRequest => 7
  | unauthorized => 8
  | forbidden => 9
  | notFound => 10
  | notAllowed => 11
  | conflict => 12
  | gone => 13
  | tooLarge => 14
  | preconditionFailed => 15
  | rangeNotSatisfiable => 16
  | rateLimited => 17
  | error => 18
  | unavailable => 19
  | timeout => 20
  | notImplemented => 21

end Nwep
